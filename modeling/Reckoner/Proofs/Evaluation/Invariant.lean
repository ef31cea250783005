import Mathlib
import Reckoner.Proofs.Evaluation.Congruence

/-!
# Invariants of evaluations

What problems, steps and rolls keep true of a session, an evaluation keeps true of it, whatever
text is evaluated and whether it gives a value or stops (`Invariant.ends_of_couples`).  So an
`Invariant` is a coupling of every run with itself.
-/

namespace Reckoner

/-- Something that stays true of a session under some limits.  Problems that no text has need not
keep it. -/
structure Invariant (limits : Limits) where
  /-- What is true of a session. -/
  holds : Session → Prop
  addStep : ∀ {s}, holds s → ∀ e, holds (s.addStep limits e)
  addProblem : ∀ {s}, holds s → ∀ p, p.isForeign = false → holds (s.addProblem p)
  afterRoll : ∀ {s}, holds s → ∀ (loud negative : Bool) (count : Nat) (faces : Int) (source : Text),
    holds (Evaluation.afterRoll loud negative count faces source limits s)

namespace Evaluation

variable {α : Type}

/-- How a run ends: with a good value or without one, and with a session that something holds of. -/
def Ends (good : α → Prop) (holds : Session → Prop) : EStateM.Result Halt Session α → Prop
  | .ok a s => good a ∧ holds s
  | .error _ s => holds s

/-- A value that a run ends with is good. -/
theorem Ends.good {good : α → Prop} {holds : Session → Prop} {r : EStateM.Result Halt Session α}
    (h : Ends good holds r) {a : α} {s : Session} (hr : r = .ok a s) : good a := by
  rw [hr] at h
  exact h.1

/-- A run that is coupled with itself keeps what holds of its session. -/
theorem ends_of_coupled {limits : Limits} {good : α → Prop} {holds : Session → Prop}
    {m : Evaluation α} {s : Session} {stop : Halt → Session → Session → Prop}
    (hstop : ∀ halt s t, stop halt s t → s = t ∧ holds s)
    (h : Coupled limits limits (fun s t => s = t ∧ holds s) m m
      (fun a b s t => a = b ∧ good a ∧ s = t ∧ holds s) stop)
    (hs : holds s) : Ends good holds (m.runOn limits s) := by
  rcases (h s s ⟨rfl, hs⟩).cases with
    ⟨a, b, t, t', hrun, -, -, ha, -, ht⟩ | ⟨halt, t, t', hrun, -, ht⟩
  · rw [hrun]
    exact ⟨ha, ht⟩
  · rw [hrun]
    exact (hstop halt t t' ht).2

end Evaluation

namespace Invariant

open Evaluation

variable {limits : Limits} (I : Invariant limits)

/-- Two runs that are the same run, in which the invariant holds. -/
def rel (s t : Session) : Prop := s = t ∧ I.holds s

/-- A roll keeps the invariant, if the problems do that the operands may have. -/
theorem coupled_roll {loud : Bool} {count faces : Float}
    (hproblem : ∀ {s}, I.holds s → ∀ p,
      ((count.isFinite && faces.isFinite) = true → p.isForeign = false) →
        I.holds (s.addProblem p)) :
    Coupled limits limits I.rel (Dice.roll loud count faces) (Dice.roll loud count faces)
      (fun a b s t => a = b ∧ a.isFinite = true ∧ I.rel s t) (fun _ => I.rel) := by
  refine coupled_roll_always rfl ?_ ?_ ?_ ?_
  · rintro s _ ⟨rfl, -⟩
    rfl
  · rintro s _ ⟨rfl, hs⟩ e
    exact ⟨rfl, I.addStep hs e⟩
  · rintro s _ ⟨rfl, hs⟩ p hp
    exact ⟨rfl, hproblem hs p hp⟩
  · rintro s _ ⟨rfl, hs⟩ negative count faces source
    exact ⟨rfl, I.afterRoll hs loud negative count faces source⟩

/-- The coupling of every run with itself. -/
def coupling [MathLibrary] : TextCoupling where
  limits₁ := limits
  limits₂ := limits
  rel := I.rel
  stop _ := I.rel
  step := Eq
  problem p p' := p = p' ∧ p.isForeign = false
  dice _ := True
  step_refl _ := rfl
  problem_refl _ hp := ⟨rfl, hp⟩
  rel_step := by
    rintro s _ e _ ⟨rfl, hs⟩ rfl
    exact ⟨rfl, I.addStep hs e⟩
  rel_problem := by
    rintro s _ p _ ⟨rfl, hs⟩ ⟨rfl, hp⟩
    exact ⟨rfl, I.addProblem hs p hp⟩
  rel_roll := by
    intro loud _ count faces hcount hfaces
    refine I.coupled_roll fun hs p hp => I.addProblem hs p (hp ?_)
    rw [hcount, hfaces, Bool.and_self]
  stop_tooDeep h := h
  stop_fault h _ _ _ _ := h
  rel_of_tooDeep h := h

theorem diceIn_coupling [MathLibrary] (t : Text) : t.DiceIn I.coupling.dice :=
  fun _ _ _ _ _ => trivial

variable {I} {α : Type} {good : α → Prop} {s : Session}

/-- A run that is coupled with itself keeps the invariant. -/
theorem ends_of_couples [MathLibrary] {m : Evaluation α} (h : I.coupling.Couples good m m)
    (hs : I.holds s) : Ends good I.holds (m.runOn limits s) :=
  ends_of_coupled (fun _ _ _ h => h) h hs

variable (I) [MathLibrary] [Stack]

/-- The value of a text is finite, and the invariant is kept. -/
theorem ends_evaluateText {neutral : Float} (hneutral : neutral.isFinite = true) (t : Text)
    (hs : I.holds s) : Ends (·.isFinite = true) I.holds ((evaluateText neutral t).runOn limits s) :=
  ends_of_couples (TextCoupling.couples_evaluateText hneutral (I.diceIn_coupling t)) hs

/-- The value of an expression is finite, and the invariant is kept. -/
theorem ends_evaluateExpression (e : Text) (hs : I.holds s) :
    Ends (·.isFinite = true) I.holds ((evaluateExpression e).runOn limits s) :=
  ends_of_coupled (fun _ _ _ h => h.2)
    (TextCoupling.coupled_evaluateExpression_self (I.diceIn_coupling _)) hs

end Invariant

/-- What holds at the end of the run of an expression holds of its outcome. -/
theorem Evaluation.Ends.of_evaluate [MathLibrary] [Stack] {limits : Limits} {dice : DiceSource}
    {expression : Text} {outcome : Outcome} {good : Float → Prop} {holds : Session → Prop}
    (hends : Ends good holds ((evaluateExpression expression).runOn limits ⟨{}, dice⟩))
    (h : evaluate limits dice expression = .ok outcome) :
    ∃ s : Session, s.report = outcome.report ∧ good outcome.value ∧ holds s := by
  obtain ⟨session, hrun, hreport⟩ := exists_runOn_of_evaluate h
  rw [hrun] at hends
  exact ⟨session, hreport, hends⟩

end Reckoner
