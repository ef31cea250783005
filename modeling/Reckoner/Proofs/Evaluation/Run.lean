import Mathlib
import Reckoner.Evaluation.Expression
import Reckoner.Proofs.Report.Growth

/-!
# Runs of single operations

What a run of each single operation comes to, as a session after a session.  A dice operator has the
most cases (`Dice.runOn_roll`); in the last of them dice are thrown, and all that this changes in a
session is told once (`Session.throws_afterRoll`).
-/

namespace Reckoner

/-! ## Sources of dice -/

namespace DiceSource

theorem throwFrom_snd (faces : Int) (count : Nat) (thrown : List Int) (source : DiceSource) :
    (throwFrom faces count thrown source).2 = advance^[count] source := by
  induction count generalizing thrown source with
  | zero => rfl
  | succ n ih => rw [throwFrom, ih, Function.iterate_succ_apply]

/-- Throwing dice takes as many numbers from the source. -/
theorem throw_snd (source : DiceSource) (count : Nat) (faces : Int) :
    (source.throw count faces).2 = advance^[count] source := throwFrom_snd _ _ _ _

theorem length_throwFrom (faces : Int) (count : Nat) (thrown : List Int) (source : DiceSource) :
    (throwFrom faces count thrown source).1.length = thrown.length + count := by
  induction count generalizing thrown source with
  | zero => simp [throwFrom]
  | succ n ih => rw [throwFrom, ih, List.length_cons, Nat.add_right_comm, Nat.add_assoc]

theorem length_throw (source : DiceSource) (count : Nat) (faces : Int) :
    (source.throw count faces).1.length = count := by
  rw [throw, length_throwFrom, List.length_nil, Nat.zero_add]

end DiceSource

/-! ## Sessions -/

namespace Session

/-- The session with a step added to its trace. -/
def addStep (limits : Limits) (s : Session) (step : Step) : Session :=
  { s with report := s.report.addStep limits step }

/-- The session with a problem added to its report. -/
def addProblem (s : Session) (p : Problem) : Session :=
  { s with report := s.report.addProblem p }

theorem problems_addStep (limits : Limits) (s : Session) (e : Step) :
    (s.addStep limits e).report.problems = s.report.problems := by
  rw [addStep, Report.addStep_eq]

/-- The second session differs from the first one by dice that were thrown and by one step, and the
dice may be listed in it. -/
structure Throws (s : Session) (faces : Int) (thrown : List Int) (t : Session) : Prop where
  /-- Each die takes one number from the source. -/
  dice : t.dice = DiceSource.advance^[thrown.length] s.dice
  /-- The dice are remembered. -/
  thrown : t.report.thrown = s.report.thrown ++ [⟨faces, thrown⟩]
  /-- One step is recorded, in the trace or beyond its limit. -/
  recorded : t.report.recorded = s.report.recorded + 1
  /-- No problem is new. -/
  problems : t.report.problems = s.report.problems
  /-- The value can be trusted if it could before. -/
  failed : t.report.failed = s.report.failed
  /-- The trace is asked for only if it was before. -/
  verbose : t.report.verbose = s.report.verbose

end Session

/-! ## Runs -/

namespace Evaluation

section

variable {α β : Type}

/-- The session after a run. -/
def endSession : EStateM.Result Halt Session α → Session
  | .ok _ s => s
  | .error _ s => s

/-- Whether a run gives a value. -/
def givesAny : EStateM.Result Halt Session α → Bool
  | .ok _ _ => true
  | .error _ _ => false

variable (limits : Limits) (s : Session)

@[simp] theorem runOn_pure (a : α) : (pure a : Evaluation α).runOn limits s = .ok a s := rfl

theorem runOn_bind (m : Evaluation α) (f : α → Evaluation β) :
    (m >>= f).runOn limits s =
      match m.runOn limits s with
      | .ok a t => (f a).runOn limits t
      | .error halt t => .error halt t := by
  show EStateM.bind (m.run limits) (fun a => (f a).run limits) s = _
  unfold EStateM.bind runOn EStateM.run
  cases m.run limits s <;> rfl

@[simp] theorem runOn_throw (halt : Halt) :
    (throw halt : Evaluation α).runOn limits s = .error halt s := rfl

@[simp] theorem runOn_read : (read : Evaluation Limits).runOn limits s = .ok limits s := rfl

@[simp] theorem runOn_trace (event : Event) (source : Text) :
    (trace event source).runOn limits s = .ok () (s.addStep limits ⟨event, source⟩) := rfl

@[simp] theorem runOn_fail (p : Problem) :
    (fail p).runOn limits s = .ok failedValue (s.addProblem p) := rfl

@[simp] theorem runOn_throwDice (count : Nat) (faces : Int) :
    (throwDice count faces).runOn limits s =
      .ok (s.dice.throw count faces).1
        ⟨s.report.addThrow faces (s.dice.throw count faces).1, (s.dice.throw count faces).2⟩ := rfl

theorem runOn_tryCatch (m : Evaluation α) (handle : Halt → Evaluation α) :
    (tryCatch m handle).runOn limits s =
      match m.runOn limits s with
      | .ok a t => .ok a t
      | .error halt t => (handle halt).runOn limits t := by
  show EStateM.tryCatch (m.run limits) (fun halt => (handle halt).run limits) s = _
  unfold EStateM.tryCatch runOn EStateM.run
  cases m.run limits s <;> rfl

/-- A run that gives a value goes on with it. -/
theorem runOn_bind_of_ok {m : Evaluation α} {f : α → Evaluation β} {a : α} {t : Session}
    {limits : Limits} {s : Session} (h : m.runOn limits s = .ok a t) :
    (m >>= f).runOn limits s = (f a).runOn limits t := by
  rw [runOn_bind, h]

/-- A run that stops does not go on. -/
theorem runOn_bind_of_error {m : Evaluation α} {f : α → Evaluation β} {halt : Halt} {t : Session}
    {limits : Limits} {s : Session} (h : m.runOn limits s = .error halt t) :
    (m >>= f).runOn limits s = .error halt t := by
  rw [runOn_bind, h]

end

/-! ## Rolls -/

/-- The session after dice were rolled. -/
def afterRoll (loud negative : Bool) (count : Nat) (faces : Int) (source : Text) (limits : Limits)
    (s : Session) : Session :=
  let thrown := s.dice.throw count faces
  let values := if negative then thrown.1.map (- ·) else thrown.1
  let shown := Dice.listed limits.listedChars values
  let more : Bool := shown.length < count
  let report := s.report.addThrow faces thrown.1
  let listing := if loud then Dice.listRolls limits faces shown more report else report
  Session.addStep limits ⟨listing, thrown.2⟩ ⟨.rolled shown more negative count faces, source⟩

/-- The sum of the dice that are rolled. -/
def rolledTotal (negative : Bool) (count : Nat) (faces : Int) (dice : DiceSource) : Int :=
  (if negative then (dice.throw count faces).1.map (- ·) else (dice.throw count faces).1).foldl
    (· + ·) 0

theorem rolledTotal_eq (negative : Bool) (count : Nat) (faces : Int) (dice : DiceSource) :
    rolledTotal negative count faces dice =
      if negative then -(dice.throw count faces).1.sum else (dice.throw count faces).1.sum := by
  rw [rolledTotal, ← List.sum_eq_foldl, List.sum_neg]
  split <;> rfl

theorem runOn_rollSome (loud negative : Bool) (count : Nat) (faces : Int) (source : Text)
    (limits : Limits) (s : Session) :
    (Dice.rollSome loud negative count faces source).runOn limits s =
      match Number.ofInt? (rolledTotal negative count faces s.dice) with
      | some total => .ok total (afterRoll loud negative count faces source limits s)
      | none => .error .sumTooLarge (afterRoll loud negative count faces source limits s) := by
  unfold Dice.rollSome
  rw [runOn_bind_of_ok (runOn_read limits s), runOn_bind_of_ok (runOn_throwDice limits s _ _)]
  simp only [rolledTotal]
  cases loud <;> cases Number.ofInt? _ <;> rfl

/-- Rolled dice are remembered, some of them may be listed in the summary, and one step of the
operator is added. -/
theorem exists_afterRoll (loud negative : Bool) (count : Nat) (faces : Int) (source : Text)
    (limits : Limits) (s : Session) :
    ∃ (summary : Report) (shown : List Int) (more : Bool),
      afterRoll loud negative count faces source limits s =
        Session.addStep limits
          ⟨(s.report.addThrow faces (s.dice.throw count faces).1).withSummary summary,
            (s.dice.throw count faces).2⟩
          ⟨.rolled shown more negative count faces, source⟩ := by
  have hlist := fun shown more =>
    @Dice.listRolls_eq (s.report.addThrow faces (s.dice.throw count faces).1) s.report rfl rfl
      limits faces shown more
  unfold afterRoll
  cases loud with
  | false => exact ⟨s.report, _, _, rfl⟩
  | true =>
    simp only [if_true, hlist]
    exact ⟨_, _, _, rfl⟩

end Evaluation

theorem Session.throws_afterRoll (loud negative : Bool) (count : Nat) (faces : Int) (source : Text)
    (limits : Limits) (s : Session) :
    s.Throws faces (s.dice.throw count faces).1
      (Evaluation.afterRoll loud negative count faces source limits s) := by
  obtain ⟨summary, shown, more, hafter⟩ :=
    Evaluation.exists_afterRoll loud negative count faces source limits s
  rw [hafter, Session.addStep]
  refine ⟨?_, ?_, Report.recorded_addStep limits _ _, ?_, ?_, ?_⟩
  · rw [DiceSource.throw_snd, DiceSource.length_throw]
  all_goals
    rw [Report.addStep_eq]
    rfl

namespace Dice

open Evaluation

/-- A roll is refused with a problem, if the limit can be written. -/
theorem runOn_refuse {allowed : Int} (h : Text.isWritable allowed = true) (limits : Limits)
    (s : Session) (count : Nat) :
    (refuse count allowed).runOn limits s =
      .ok failedValue (s.addProblem (.tooManyDice count allowed)) := by
  rw [refuse, if_pos h, runOn_fail]

/-- If the limit cannot be written, nothing is reported. -/
theorem runOn_refuse_of_not_isWritable {allowed : Int} (h : Text.isWritable allowed = false)
    (limits : Limits) (s : Session) (count : Nat) :
    (refuse count allowed).runOn limits s = .error .tooManyDigits s := by
  rw [refuse, if_neg (Bool.not_eq_true _ ▸ h), runOn_throw]

/-- Refusing a roll adds a problem or stops. -/
theorem runOn_refuse_cases (limits : Limits) (s : Session) (count : Nat) (allowed : Int) :
    (refuse count allowed).runOn limits s =
        .ok failedValue (s.addProblem (.tooManyDice count allowed)) ∨
      (refuse count allowed).runOn limits s = .error .tooManyDigits s := by
  cases hwritable : Text.isWritable allowed with
  | true => exact .inl (runOn_refuse hwritable limits s count)
  | false => exact .inr (runOn_refuse_of_not_isWritable hwritable limits s count)

/-- The checks of a roll, in their order, before any die is thrown. -/
theorem runOn_roll (limits : Limits) (s : Session) (loud : Bool) (count faces : Float) :
    (roll loud count faces).runOn limits s =
      if (count.isFinite && faces.isFinite) = false then
        .ok failedValue (s.addProblem (.infiniteDice count faces))
      else if limits.dice < (Number.round count).natAbs then
        (refuse (Number.round count).natAbs limits.dice).runOn limits s
      else if Number.round count = 0 then
        .ok 0 (s.addStep limits ⟨.noDice, sourceText count faces⟩)
      else if Number.round faces < 1 then .ok failedValue (s.addProblem .facelessDie)
      else
        (rollSome loud (Number.round count < 0) (Number.round count).natAbs (Number.round faces)
          (sourceText count faces)).runOn limits s := by
  unfold roll
  cases hfinite : count.isFinite && faces.isFinite with
  | false => rfl
  | true =>
    rw [if_neg (by decide : ¬ (!true) = true), if_neg (by decide : ¬ true = false),
      runOn_bind_of_ok (runOn_read limits s)]
    simp only
    split_ifs <;> rfl

end Dice

end Reckoner
