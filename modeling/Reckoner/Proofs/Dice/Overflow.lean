import Mathlib
import Reckoner.Proofs.Dice.Roll

/-!
# Numbers that dice and factorials cannot use, and results that no double can hold

A factorial reports each of them, and so does a roll, but for one thing: dice that add up to more
than a double can hold are not reported.  Such a roll stops after its dice were thrown and recorded
(`Dice.Overflows`).  Apart from that, a roll stops only under a limit far below zero, which cannot
be named in a refusal, and nothing stops a factorial.
-/

namespace Reckoner

/-! ## Answers -/

/-- A run gives a finite number.  It either counts as failed, for a problem that is reported and
changes nothing else, or has no new problem. -/
inductive Evaluation.Answers (s : Session) : EStateM.Result Halt Session Float → Prop where
  /-- The value of a run without a new problem. -/
  | value {x : Float} {t : Session} (hfinite : x.isFinite = true)
    (hproblems : t.report.problems = s.report.problems) : Answers s (.ok x t)
  /-- What a failed run counts as. -/
  | failed (p : Problem) : Answers s (.ok failedValue (s.addProblem p))

open Evaluation

/-- A run that gives an answer does not stop. -/
theorem Evaluation.Answers.ne_error {s t : Session} {halt : Halt}
    {r : EStateM.Result Halt Session Float} (h : Answers s r) : r ≠ .error halt t := by
  cases h <;> exact fun h => nomatch h

/-- A step is not a problem. -/
theorem Evaluation.answers_addStep {x : Float} (hfinite : x.isFinite = true) (limits : Limits)
    (s : Session) (e : Step) : Answers s (.ok x (s.addStep limits e)) :=
  .value hfinite (Session.problems_addStep limits s e)

/-! ## Rolls -/

namespace Dice

/-- A roll of finite numbers that is not refused, with dice that add up to more than a double can
hold. -/
structure Overflows (limits : Limits) (dice : DiceSource) (count faces : Float)
    (thrown : List Int) (total : Int) : Prop where
  /-- The count is finite. -/
  isFinite_count : count.isFinite = true
  /-- The number of faces is finite. -/
  isFinite_faces : faces.isFinite = true
  /-- There are not too many dice. -/
  le_cap : |Number.round count| ≤ limits.dice
  /-- There are some dice. -/
  ne_zero : Number.round count ≠ 0
  /-- The dice have a face. -/
  one_le : 1 ≤ Number.round faces
  /-- The dice show these faces. -/
  isThrow : IsThrow dice (Number.round count) (Number.round faces) thrown total
  /-- No double can hold their total. -/
  large : Number.roundingBound ≤ |(total : Rat)|

variable {limits : Limits} {s : Session} {count faces : Float}

/-- A roll with a total that no double can hold stops, and it reports nothing. -/
theorem Overflows.runOn_roll {thrown : List Int} {total : Int}
    (h : Overflows limits s.dice count faces thrown total) (loud : Bool) :
    ∃ t, s.Throws (Number.round faces) thrown t ∧
      (roll loud count faces).runOn limits s = .error .sumTooLarge t := by
  obtain ⟨t, ht, -, hlarge⟩ := throws_roll loud h.isFinite_count h.isFinite_faces h.le_cap h.ne_zero
    h.one_le h.isThrow
  exact ⟨t, ht, hlarge h.large⟩

/-- All other rolls give an answer, under a limit that can be written. -/
theorem answers_roll_or_overflows {limits : Limits}
    (hlimit : -10 ^ Text.maxIntegerDigits < limits.dice) (s : Session) (loud : Bool)
    (count faces : Float) :
    Answers s ((roll loud count faces).runOn limits s) ∨
      ∃ thrown total, Overflows limits s.dice count faces thrown total := by
  rw [runOn_roll, ← Int.abs_eq_natAbs]
  split_ifs with hinfinite hcap hzero hface
  · exact .inl (.failed _)
  · simp only [Bool.not_eq_false, Bool.and_eq_true] at hinfinite
    rw [runOn_refuse (isWritable_of_lt hinfinite.1 hcap hlimit)]
    exact .inl (.failed _)
  · exact .inl (answers_addStep (by decide) _ _ _)
  · exact .inl (.failed _)
  · simp only [Bool.not_eq_false, Bool.and_eq_true] at hinfinite
    obtain ⟨hcount, hfaces⟩ := hinfinite
    have hthrow := isThrow_throw s.dice hzero (not_lt.1 hface)
    rw [runOn_rollSome, rolledTotal_natAbs hzero]
    split
    · rename_i total htotal
      exact .inl (.value (Number.isFinite_of_ofInt? htotal)
        (s.throws_afterRoll _ _ _ _ _ _).problems)
    · rename_i htotal
      refine .inr ⟨_, _, ⟨hcount, hfaces, not_lt.1 hcap, hzero, not_lt.1 hface, hthrow, ?_⟩⟩
      exact Number.ofInt?_eq_none_iff.1 htotal

end Dice

/-! ## Factorials -/

/-- The cases of a factorial. -/
theorem runOn_factorial (limits : Limits) (s : Session) (operand : Float) :
    (factorial operand).runOn limits s =
      if operand.isFinite = false then .ok failedValue (s.addProblem (.infiniteFactorial operand))
      else
        match fallingProduct (Number.round operand).toNat 1 with
        | none => .ok failedValue (s.addProblem .factorialOverflow)
        | some product =>
          .ok product (s.addStep limits ⟨.factorial operand (Number.round operand),
            Number.plainText operand ++ ['!']⟩) := by
  unfold factorial
  cases hfinite : operand.isFinite with
  | false => rfl
  | true =>
    rw [if_neg (by decide : ¬ (!true) = true), if_neg (by decide : ¬ true = false)]
    simp only
    cases fallingProduct (Number.round operand).toNat 1 with
    | none => rfl
    | some product => rfl

/-- A factorial gives an answer, whatever its operand is. -/
theorem answers_factorial (limits : Limits) (s : Session) (operand : Float) :
    Answers s ((factorial operand).runOn limits s) := by
  rw [runOn_factorial]
  split
  · exact .failed _
  · rename_i hfinite
    rw [Bool.not_eq_false] at hfinite
    split
    · exact .failed _
    · rename_i product hproduct
      exact answers_addStep
        (isFinite_fallingProduct (Number.toNat_round_lt hfinite) (by decide) hproduct) _ _ _

/-- A factorial of a number that is not finite fails, and so does one that is too large. -/
theorem fails_factorial (limits : Limits) (s : Session) {operand : Float}
    (h : operand.isFinite = false ∨ fallingProduct (Number.round operand).toNat 1 = none) :
    ∃ p, (factorial operand).runOn limits s = .ok failedValue (s.addProblem p) := by
  rw [runOn_factorial]
  by_cases hfinite : operand.isFinite = false
  · rw [if_pos hfinite]
    exact ⟨_, rfl⟩
  · rw [if_neg hfinite, h.resolve_left hfinite]
    exact ⟨_, rfl⟩

/-! ## Main result -/

/-- Every roll and every factorial gives a finite number, whatever the operands, the limits and the
dice are, and reports a problem when the operands are not finite or a factorial is too large.  There
are two exceptions.  A roll with dice that add up to more than a double can hold stops without a
problem, and the report has its dice and its step.  A roll of finite numbers under a limit far below
zero stops with the session as it was, because the limit is too long to be written. -/
theorem answers_or_sumTooLarge (limits : Limits) (s : Session) :
    (∀ (loud : Bool) (count faces : Float),
      let run := (Dice.roll loud count faces).runOn limits s
      ((count.isFinite && faces.isFinite) = true ∨
          run = .ok failedValue (s.addProblem (.infiniteDice count faces))) ∧
        ((Answers s run ∧
            ∀ thrown total, ¬ Dice.Overflows limits s.dice count faces thrown total) ∨
          (∃ thrown total t, Dice.Overflows limits s.dice count faces thrown total ∧
            s.Throws (Number.round faces) thrown t ∧ run = .error .sumTooLarge t) ∨
          (count.isFinite && faces.isFinite) = true ∧
            limits.dice ≤ -10 ^ Text.maxIntegerDigits ∧ run = .error .tooManyDigits s)) ∧
      ∀ operand : Float,
        let run := (factorial operand).runOn limits s
        Answers s run ∧
          (operand.isFinite = true ∧ fallingProduct (Number.round operand).toNat 1 ≠ none ∨
            ∃ p, run = .ok failedValue (s.addProblem p)) := by
  constructor
  · intro loud count faces run
    constructor
    · cases hfinite : count.isFinite && faces.isFinite with
      | true => exact .inl rfl
      | false =>
        exact .inr ((Dice.runOn_roll limits s loud count faces).trans (if_pos hfinite))
    · rcases lt_or_ge (-10 ^ Text.maxIntegerDigits) limits.dice with hlimit | hlimit
      · rcases Dice.answers_roll_or_overflows hlimit s loud count faces with
          hanswers | ⟨thrown, total, hoverflows⟩
        · refine .inl ⟨hanswers, fun thrown total hoverflows => ?_⟩
          obtain ⟨t, -, hrun⟩ := hoverflows.runOn_roll loud
          exact hanswers.ne_error hrun
        · obtain ⟨t, hthrows, hrun⟩ := hoverflows.runOn_roll loud
          exact .inr (.inl ⟨thrown, total, t, hoverflows, hthrows, hrun⟩)
      · cases hfinite : count.isFinite && faces.isFinite with
        | true =>
          obtain ⟨hcount, hfaces⟩ := Bool.and_eq_true_iff.1 hfinite
          exact .inr (.inr ⟨rfl, hlimit, Dice.runOn_roll_of_le loud hcount hfaces hlimit⟩)
        | false =>
          have hrun : run = .ok failedValue (s.addProblem (.infiniteDice count faces)) :=
            (Dice.runOn_roll limits s loud count faces).trans (if_pos hfinite)
          refine .inl ⟨hrun ▸ .failed _, fun thrown total hoverflows => ?_⟩
          rw [hoverflows.isFinite_count, hoverflows.isFinite_faces] at hfinite
          cases hfinite
  · intro operand run
    refine ⟨answers_factorial limits s operand, ?_⟩
    by_cases hinfinite : operand.isFinite = false
    · exact .inr (fails_factorial limits s (.inl hinfinite))
    · by_cases hlarge : fallingProduct (Number.round operand).toNat 1 = none
      · exact .inr (fails_factorial limits s (.inr hlarge))
      · exact .inl ⟨by simpa using hinfinite, hlarge⟩

/-- Two dice that show the highest of `1e308` faces: the roll stops after its dice were thrown and
its step was recorded, without a problem. -/
theorem roll_overflow :
    ∃ t, (Dice.roll true 2 1e308).runOn {} ⟨{}, .ofList [-1]⟩ = .error .sumTooLarge t ∧
      t.report.problems = [] ∧ t.report.recorded = 1 ∧ t.report.thrown ≠ [] := by
  have hcount : Number.round 2 = 2 := by decide +kernel
  obtain ⟨f, hf⟩ : ∃ f, f = Number.round 1e308 := ⟨_, rfl⟩
  have hfaces : (2 : Rat) ^ (1023 : Int) ≤ f := by
    rw [hf]
    decide +kernel
  have hface : 1 ≤ f := by
    rw [hf]
    decide +kernel
  have hthrown : ((DiceSource.ofList [-1]).throw 2 f).1 = [f, f] := by
    -- the remainder of `-1` is the greatest one
    have hlast : 1 + -1 % f = f := by
      rw [Int.neg_emod_eq_sub_emod, Int.emod_eq_of_lt] <;> omega
    show [1 + -1 % f, 1 + -1 % f] = _
    rw [hlast]
  have hthrow : Dice.IsThrow (.ofList [-1]) 2 f [f, f] ((2 : Int).sign * [f, f].sum) := by
    rw [← hthrown]
    exact Dice.isThrow_throw _ (by decide) hface
  have hlarge : Number.roundingBound ≤ |(((2 : Int).sign * [f, f].sum : Int) : Rat)| :=
    calc Number.roundingBound ≤ 2 ^ (1024 : Int) := Number.roundingBound_lt.le
      _ = 2 * 2 ^ (1023 : Int) := by
        rw [show (1024 : Int) = 1 + 1023 by rfl, zpow_add₀ (by norm_num), zpow_one]
      _ ≤ 2 * f := by linarith
      _ = (((2 : Int).sign * [f, f].sum : Int) : Rat) := by
        simp [two_mul, Int.sign_eq_one_of_pos (show (0 : Int) < 2 by decide)]
      _ ≤ _ := le_abs_self _
  have hoverflows : Dice.Overflows {} (.ofList [-1]) 2 1e308 [f, f]
      ((2 : Int).sign * [f, f].sum) := by
    rw [hf] at hface hthrow hlarge ⊢
    refine ⟨by decide, by decide +kernel, ?_, ?_, hface, ?_, hlarge⟩ <;> rw [hcount]
    · decide
    · decide
    · exact hthrow
  obtain ⟨t, hthrows, hrun⟩ := hoverflows.runOn_roll (s := ⟨{}, .ofList [-1]⟩) true
  refine ⟨t, hrun, hthrows.problems, hthrows.recorded, ?_⟩
  rw [hthrows.thrown]
  simp

end Reckoner
