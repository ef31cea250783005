import Mathlib
import Reckoner.Proofs.Evaluation.Congruence
import Reckoner.Proofs.Settings.Environment

/-!
# What stops an evaluation

An evaluation gives a value for every text.  The one exception is a roll whose dice add up to more
than a double can hold, unless the limit of dice is a negative number that is too long to be written
in a refusal; so an expression without dice always has a value (`evaluate_ok_or_sumTooLarge`).  No
settings have such a limit (`evaluate_of_readSettings`).  That no other fault escapes rests on the
checks before each function: the number of its arguments and its domain leave it nothing to stop at,
provided that the logarithm is zero only at one.
-/

namespace Reckoner

/-! ## Functions -/

namespace MathFunction

theorem isReported_of_checked {x y : Float} {fault : MathFault}
    (h : checked x y = .error fault) : fault.isReported = true := by
  unfold checked at h
  split at h
  · cases h
    rfl
  · split at h
    · cases h
      rfl
    · cases h

theorem isReported_of_rounded {rule : Rat → Int} {x : Float} {fault : MathFault}
    (h : rounded rule x = .error fault) : fault.isReported = true := by
  unfold rounded at h
  split at h
  · cases h
    rfl
  · split at h
    · cases h
      rfl
    · cases h

theorem isReported_of_best {f : MathFunction} {beats : Float → Float → Bool} {args : List Float}
    {fault : MathFault} (h : best f beats args = .error fault) : fault.isReported = true := by
  cases args with
  | nil =>
    cases h
    rfl
  | cons x rest => cases h

/-- A fault of a double is a fault of the value made from it. -/
theorem error_of_map {r : Except MathFault Float} {fault : MathFault}
    (h : MathValue.real <$> r = .error fault) : r = .error fault := by
  cases r with
  | ok x => cases h
  | error e =>
    cases h
    rfl

variable [MathLibrary]

theorem isReported_of_logarithm {x : Float} {fault : MathFault}
    (h : logarithm x = .error fault) : fault.isReported = true := by
  unfold logarithm at h
  split at h
  · cases h
  · cases h
    rfl

/-- A logarithm divides by the logarithm of its base, which is not zero in its domain. -/
theorem isReported_of_logarithmInBase
    (hlog : ∀ x, (MathLibrary.log x == 0) = true → (x == 1) = true) {base x : Float}
    {fault : MathFault} (hdomain : log.domain [base, x] = true)
    (h : logarithmInBase base x = .error fault) : fault.isReported = true := by
  unfold logarithmInBase at h
  cases habove : logarithm x with
  | error e =>
    rw [habove] at h
    cases h
    exact isReported_of_logarithm habove
  | ok above =>
    cases hbelow : logarithm base with
    | error e =>
      rw [habove, hbelow] at h
      cases h
      exact isReported_of_logarithm hbelow
    | ok below =>
      rw [habove, hbelow] at h
      have hbase : MathLibrary.log base = below := by
        unfold logarithm at hbelow
        split at hbelow
        · cases hbelow
          rfl
        · cases hbelow
      by_cases hzero : (below == 0) = true
      · have hone := hlog base (by rw [hbase, hzero])
        simp [domain, bne, hone] at hdomain
      · simp only [bind, Except.bind, hzero] at h
        cases h

/-- A function of one argument has no fault that is not reported. -/
theorem isReported_of_applyOne {f : MathFunction} {x : Float} {fault : MathFault}
    (h : f.applyOne x = .error fault) : fault.isReported = true := by
  cases f with
  | abs | cbrt | max | min | log => cases h
  | ceil | floor => exact isReported_of_rounded h
  | ln => exact isReported_of_logarithm (error_of_map h)
  | _ => exact isReported_of_checked (error_of_map h)

/-- A function that passed its checks stops at no fault that is not reported. -/
theorem isReported_of_apply (hlog : ∀ x, (MathLibrary.log x == 0) = true → (x == 1) = true)
    {f : MathFunction} {args : List Float} {fault : MathFault}
    (hcount : f.bounds.accepts args.length = true) (hdomain : f.domain args = true)
    (h : f.apply args = .error fault) : fault.isReported = true := by
  cases f with
  | max => exact isReported_of_best (error_of_map h)
  | min => exact isReported_of_best (error_of_map h)
  | log =>
    match args, hcount with
    | [base, x], _ => exact isReported_of_logarithmInBase hlog hdomain (error_of_map h)
  | _ =>
    match args, hcount with
    | [x], _ =>
      simp only [apply] at h
      exact isReported_of_applyOne h

end MathFunction

/-! ## Dice -/

/-- How many dice were thrown. -/
def Report.diceThrown (r : Report) : Nat := (r.thrown.map (·.values.length)).sum

/-- The last roll of a session has a sum that no double can hold.  Its dice have at least one face
and are at most as many as are allowed, and they were thrown from the source as all dice before them
had left it. -/
def OverflowingRoll (limits : Limits) (dice : DiceSource) (s : Session) : Prop :=
  ∃ (earlier : Report) (count : Nat) (faces : Int),
    let values := ((DiceSource.advance^[earlier.diceThrown] dice).throw count faces).1
    s.report.thrown = earlier.thrown ++ [⟨faces, values⟩] ∧ (count : Int) ≤ limits.dice ∧
      1 ≤ faces ∧ Number.roundingBound ≤ |(values.sum : Rat)|

/-- A session has taken from a source the dice that it has thrown. -/
def Session.HasTaken (dice : DiceSource) (s : Session) : Prop :=
  s.dice = DiceSource.advance^[s.report.diceThrown] dice

namespace Session

variable {dice : DiceSource} {s t : Session}

theorem HasTaken.addStep (h : s.HasTaken dice) (limits : Limits) (e : Step) :
    (s.addStep limits e).HasTaken dice := by
  unfold Session.addStep
  rw [Report.addStep_eq]
  exact h

/-- More dice are taken from what the dice before them left. -/
theorem Throws.hasTaken {faces : Int} {thrown : List Int} (hthrows : s.Throws faces thrown t)
    (h : s.HasTaken dice) : t.HasTaken dice := by
  have hcount : t.report.diceThrown = thrown.length + s.report.diceThrown := by
    simp [Report.diceThrown, hthrows.thrown, Nat.add_comm]
  rw [HasTaken, hthrows.dice, h, hcount, Function.iterate_add_apply]

end Session

/-- The sum of a roll is the sum of the faces, or its negative. -/
theorem Evaluation.abs_rolledTotal (negative : Bool) (count : Nat) (faces : Int)
    (dice : DiceSource) :
    |((rolledTotal negative count faces dice : Int) : Rat)| =
      |((dice.throw count faces).1.sum : Rat)| := by
  rw [rolledTotal_eq]
  split
  · rw [Int.cast_neg, abs_neg]
  · rfl

/-- A roll without a double for its sum is an overflowing one. -/
theorem Evaluation.overflowingRoll_afterRoll {limits : Limits} {dice : DiceSource} {s : Session}
    (h : s.HasTaken dice) (loud negative : Bool) {count : Nat} {faces : Int} (source : Text)
    (hcount : (count : Int) ≤ limits.dice) (hfaces : 1 ≤ faces)
    (hsum : Number.ofInt? (rolledTotal negative count faces s.dice) = none) :
    OverflowingRoll limits dice (afterRoll loud negative count faces source limits s) := by
  have hthrown := (s.throws_afterRoll loud negative count faces source limits).thrown
  have hlarge := Number.ofInt?_eq_none_iff.1 hsum
  rw [abs_rolledTotal, h] at hlarge
  rw [h] at hthrown
  exact ⟨s.report, count, faces, hthrown, hcount, hfaces, hlarge⟩

/-- A whole number can be written if its magnitude is below the bound. -/
theorem Text.isWritable_iff {n : Int} : isWritable n = true ↔ |n| < 10 ^ maxIntegerDigits := by
  rw [isWritable, decide_eq_true_iff, Int.abs_eq_natAbs, Nat.pow_eq, ← Int.ofNat_lt, Nat.cast_pow,
    Nat.cast_ofNat]

/-- A limit that a double exceeds can be named, unless it is far below zero. -/
theorem Dice.isWritable_of_lt {limits : Limits} {count : Float} (hcount : count.isFinite = true)
    (hcap : limits.dice < |Number.round count|)
    (hlimit : -10 ^ Text.maxIntegerDigits < limits.dice) :
    Text.isWritable limits.dice = true := by
  have hshort : |(Number.round count : Rat)| < 10 ^ Text.maxIntegerDigits :=
    calc |(Number.round count : Rat)| < 2 ^ (1024 : Int) :=
          (Number.abs_round_lt hcount).trans Number.roundingBound_lt
      _ ≤ 10 ^ (1024 : Int) := zpow_le_zpow_left₀ (by norm_num) (by norm_num) (by norm_num)
      _ ≤ 10 ^ Text.maxIntegerDigits := by
          rw [← zpow_natCast]
          exact zpow_le_zpow_right₀ (by norm_num) (by norm_num [Text.maxIntegerDigits])
  exact Text.isWritable_iff.2 (abs_lt.2 ⟨hlimit, hcap.trans (by exact_mod_cast hshort)⟩)

/-- A limit that is far below zero cannot be named. -/
theorem Dice.not_isWritable_of_le {limits : Limits}
    (h : limits.dice ≤ -10 ^ Text.maxIntegerDigits) : Text.isWritable limits.dice = false := by
  rw [← Bool.not_eq_true, Text.isWritable_iff, not_lt]
  exact (le_neg_of_le_neg h).trans (neg_le_abs _)

/-! ## Expressions -/

section

variable [MathLibrary] (hlog : ∀ x, (MathLibrary.log x == 0) = true → (x == 1) = true)
  (limits : Limits) (dice : DiceSource) (allowed : Prop)

/-- Two runs of one evaluation are the same run, and what stops it is a roll with too large a sum or
under a limit that cannot be written, if dice are allowed at all. -/
def TextCoupling.safe : TextCoupling where
  limits₁ := limits
  limits₂ := limits
  rel s t := s = t ∧ s.HasTaken dice
  stop halt s t := s = t ∧ s.HasTaken dice ∧
    (halt = .tooDeep ∨ allowed ∧ (halt = .sumTooLarge ∧ OverflowingRoll limits dice s ∨
      halt = .tooManyDigits ∧ limits.dice ≤ -10 ^ Text.maxIntegerDigits))
  step := Eq
  problem := Eq
  dice _ := allowed
  step_refl _ := rfl
  problem_refl _ _ := rfl
  rel_step := by
    rintro s _ e _ ⟨rfl, htaken⟩ rfl
    exact ⟨rfl, htaken.addStep limits e⟩
  rel_problem := by
    rintro s _ p _ ⟨rfl, htaken⟩ rfl
    exact ⟨rfl, htaken⟩
  rel_roll := by
    intro loud hallowed count faces hfinite _
    refine Evaluation.coupled_roll rfl ?_ ?_ ?_ ?_ ?_ ?_
    · rintro s _ ⟨rfl, -⟩
      rfl
    · rintro s _ ⟨rfl, htaken⟩ e
      exact ⟨rfl, htaken.addStep limits e⟩
    · rintro s _ ⟨rfl, htaken⟩ p -
      exact ⟨rfl, htaken⟩
    · rintro s _ ⟨rfl, htaken⟩ negative count faces source
      exact ⟨rfl, (s.throws_afterRoll loud negative count faces source limits).hasTaken htaken⟩
    · rintro s _ ⟨rfl, htaken⟩ negative count faces source hcount hfaces hsum
      exact ⟨rfl, (s.throws_afterRoll loud negative count faces source limits).hasTaken htaken,
        .inr ⟨hallowed, .inl ⟨rfl, Evaluation.overflowingRoll_afterRoll htaken loud negative source
          hcount hfaces hsum⟩⟩⟩
    · rintro s _ ⟨rfl, htaken⟩ hcap hlong
      refine ⟨rfl, htaken, .inr ⟨hallowed, .inr ⟨rfl, not_lt.1 fun hlimit => ?_⟩⟩⟩
      rw [← Int.abs_eq_natAbs] at hcap
      rw [Dice.isWritable_of_lt hfinite hcap hlimit] at hlong
      cases hlong
  stop_tooDeep := by
    rintro s _ ⟨rfl, htaken⟩
    exact ⟨rfl, htaken, .inl rfl⟩
  stop_fault := by
    intro s t f args fault _ hcount hdomain hfault hreported
    rw [MathFunction.isReported_of_apply hlog hcount hdomain hfault] at hreported
    cases hreported
  rel_of_tooDeep := by
    rintro s _ ⟨rfl, htaken, -⟩
    exact ⟨rfl, htaken⟩

end

/-- What stops an evaluation is a roll with too large a sum, or under a limit that cannot be
written. -/
theorem evaluate_eq_error [MathLibrary] [Stack]
    (hlog : ∀ x, (MathLibrary.log x == 0) = true → (x == 1) = true)
    {limits : Limits} {dice : DiceSource} {allowed : Prop} {expression : Text}
    (hdice : expression.DiceIn fun _ => allowed) {halt : Halt}
    (h : evaluate limits dice expression = .error halt) :
    allowed ∧ ((halt = .sumTooLarge ∧ ∃ s : Session,
      (Evaluation.evaluateExpression expression).runOn limits ⟨{}, dice⟩ = .error .sumTooLarge s ∧
        OverflowingRoll limits dice s) ∨
      halt = .tooManyDigits ∧ limits.dice ≤ -10 ^ Text.maxIntegerDigits) := by
  have hrun := TextCoupling.coupled_evaluateExpression_self
    (c := .safe hlog limits dice allowed) (Text.diceIn_normalize hdice) ⟨{}, dice⟩ ⟨{}, dice⟩
    ⟨rfl, rfl⟩
  simp only [TextCoupling.safe] at hrun
  unfold evaluate at h
  split at h
  · cases h
  · rename_i halt' s herror
    cases h
    rw [herror] at hrun
    obtain ⟨-, hdeep, -, -, hstop⟩ := hrun
    obtain ⟨hallowed, ⟨rfl, hroll⟩ | hlimit⟩ := hstop.resolve_left hdeep
    · exact ⟨hallowed, .inl ⟨rfl, s, herror, hroll⟩⟩
    · exact ⟨hallowed, .inr hlimit⟩

/-- Under the limits of settings that were read, a roll with too large a sum is all that stops an
evaluation: no such limit is negative, so a refusal can name it. -/
theorem evaluate_of_readSettings [MathLibrary] [Stack]
    (hlog : ∀ x, (MathLibrary.log x == 0) = true → (x == 1) = true) {environment : Environment}
    {read : ReadSettings} (hread : readSettings environment = .ok read) (dice : DiceSource)
    (expression : Text) :
    (∃ outcome, evaluate read.settings.limits dice expression = .ok outcome) ∨
      evaluate read.settings.limits dice expression = .error .sumTooLarge := by
  cases h : evaluate read.settings.limits dice expression with
  | ok outcome => exact .inl ⟨outcome, rfl⟩
  | error halt =>
    have hdice : expression.DiceIn fun _ => True := by simp [Text.DiceIn]
    obtain ⟨-, ⟨rfl, -⟩ | ⟨-, hlimit⟩⟩ := evaluate_eq_error hlog hdice h
    · exact .inr rfl
    · have hbelow : -10 ^ Text.maxIntegerDigits < (0 : Int) := by simp
      exact absurd (isNonneg_of_readSettings hread).dice (not_le.2 (hlimit.trans_lt hbelow))

/-- The logarithms of one, two and eight. -/
def smallLogarithm (x : Float) : Float :=
  if x == 1 then 0
  else if x == 2 then 0.6931471805599453
  else if x == 8 then 2.0794415416798357
  else 1

/-- A library that knows the logarithms of one, two and eight. -/
@[reducible] def smallLibrary : MathLibrary where
  pow _ _ := 1
  exp _ := 1
  log := smallLogarithm
  sin _ := 0
  cos _ := 1
  tan _ := 0
  asin _ := 0
  acos _ := 0
  atan _ := 0

end Reckoner
