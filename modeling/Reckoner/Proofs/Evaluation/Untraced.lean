import Mathlib
import Reckoner.Proofs.Dice.Summary
import Reckoner.Proofs.Evaluation.Congruence

/-!
# Reports without their traces

The trace tells how a value was computed, so two texts with the same value have different traces.
Everything else in a report (`Report.untraced`) does not depend on the trace: it is kept by two runs
that differ in their steps only (`TextCoupling.untraced`).
-/

namespace Reckoner

/-- The report without its trace. -/
def Report.untraced (r : Report) : Report := { r with steps := [], dropped := 0 }

/-- The session without its trace. -/
def Session.untraced (s : Session) : Session := { s with report := s.report.untraced }

/-- The outcome without its trace. -/
def Outcome.untraced (o : Outcome) : Outcome := { o with report := o.report.untraced }

/-! ## What is done to a session -/

/-- Listing dice neither looks at the trace nor changes it. -/
theorem Report.untraced_listRolls (limits : Limits) (faces : Int) (shown : List Int) (more : Bool)
    (r : Report) :
    (Dice.listRolls limits faces shown more r).untraced =
      Dice.listRolls limits faces shown more r.untraced := by
  have hself := @Dice.listRolls_eq r r rfl rfl limits faces shown more
  have hother := @Dice.listRolls_eq r.untraced r rfl rfl limits faces shown more
  rw [hother, hself]
  rfl

namespace Session

@[simp] theorem untraced_addStep (limits : Limits) (s : Session) (e : Step) :
    (s.addStep limits e).untraced = s.untraced := by
  unfold addStep Report.addStep
  split <;> rfl

@[simp] theorem untraced_addProblem (s : Session) (p : Problem) :
    (s.addProblem p).untraced = s.untraced.addProblem p := rfl

/-- The dice that are rolled do not depend on the trace. -/
theorem untraced_afterRoll (loud negative : Bool) (count : Nat) (faces : Int) (source : Text)
    (limits : Limits) (s : Session) :
    (Evaluation.afterRoll loud negative count faces source limits s).untraced =
      (Evaluation.afterRoll loud negative count faces source limits s.untraced).untraced := by
  unfold Evaluation.afterRoll
  simp only [untraced_addStep]
  cases loud with
  | false => rfl
  | true =>
    show (⟨(Dice.listRolls limits faces _ _ _).untraced, _⟩ : Session) =
      ⟨(Dice.listRolls limits faces _ _ (Report.addThrow s.report.untraced _ _)).untraced, _⟩
    rw [Report.untraced_listRolls, Report.untraced_listRolls]
    rfl

end Session

/-! ## Results -/

namespace Evaluation

variable {α : Type}

/-- The result of a run, without the trace. -/
def untracedResult : EStateM.Result Halt Session α → Except Halt α × Session
  | .ok a s => (.ok a, s.untraced)
  | .error halt s => (.error halt, s.untraced)

/-- Results agree if they are the same but for their traces. -/
theorem agree_untraced_iff {good : α → Prop}
    {r r' : EStateM.Result Halt Session α} :
    Agree (fun a b s t => a = b ∧ good a ∧ s.untraced = t.untraced)
        (fun _ s t => s.untraced = t.untraced) r r' ↔
      (∀ a s, r = .ok a s → good a) ∧ untracedResult r = untracedResult r' := by
  cases r <;> cases r' <;> simp [Agree, untracedResult]
  tauto

/-- Expressions have the same outcomes, but for their traces, if their runs have the same results,
but for theirs. -/
theorem map_untraced_evaluate [MathLibrary] [Stack] {limits : Limits} {dice : DiceSource}
    {e e' : Text} (h : untracedResult ((evaluateExpression e).runOn limits ⟨{}, dice⟩) =
      untracedResult ((evaluateExpression e').runOn limits ⟨{}, dice⟩)) :
    (evaluate limits dice e).map Outcome.untraced =
      (evaluate limits dice e').map Outcome.untraced := by
  have hrun : ∀ e, (evaluate limits dice e).map Outcome.untraced =
      (untracedResult ((evaluateExpression e).runOn limits ⟨{}, dice⟩)).1.map fun x =>
        ⟨x, (untracedResult ((evaluateExpression e).runOn limits ⟨{}, dice⟩)).2.report⟩ := by
    intro e
    unfold evaluate
    split <;> rename_i heq <;> rw [heq] <;> rfl
  rw [hrun, hrun, h]

end Evaluation

/-! ## Couplings -/

section

variable [MathLibrary] (limits : Limits)

/-- Two runs whose sessions differ in their traces only. -/
def TextCoupling.untraced : TextCoupling where
  limits₁ := limits
  limits₂ := limits
  rel s t := s.untraced = t.untraced
  stop _ s t := s.untraced = t.untraced
  step _ _ := True
  problem := Eq
  dice _ := True
  step_refl _ := trivial
  problem_refl _ _ := rfl
  rel_step h _ := by rw [Session.untraced_addStep, Session.untraced_addStep, h]
  rel_problem := by
    rintro s t p _ h rfl
    rw [Session.untraced_addProblem, Session.untraced_addProblem, h]
  rel_roll := by
    intro loud _ count faces _ _
    have hdice : ∀ {s t : Session}, s.untraced = t.untraced → s.dice = t.dice := by
      intro s t h
      exact (Session.mk.inj h).2
    have hroll : ∀ {s t : Session}, s.untraced = t.untraced →
        ∀ (negative : Bool) (count : Nat) (faces : Int) (source : Text),
          (Evaluation.afterRoll loud negative count faces source limits s).untraced =
            (Evaluation.afterRoll loud negative count faces source limits t).untraced := by
      intro s t h negative count faces source
      rw [Session.untraced_afterRoll, h, ← Session.untraced_afterRoll]
    refine Evaluation.coupled_roll_always rfl hdice (fun h _ => ?_) (fun h _ _ => ?_) hroll
    · rw [Session.untraced_addStep, Session.untraced_addStep, h]
    · rw [Session.untraced_addProblem, Session.untraced_addProblem, h]
  stop_tooDeep h := h
  stop_fault h _ _ _ _ := h
  rel_of_tooDeep h := h

/-- Evaluations are coupled if their runs are the same but for the traces. -/
theorem TextCoupling.couples_untraced_iff {limits : Limits} {α : Type} {good : α → Prop}
    {m m' : Evaluation α} :
    (untraced limits).Couples good m m' ↔ ∀ s t : Session, s.untraced = t.untraced →
      (∀ a u, m.runOn limits s = .ok a u → good a) ∧
        Evaluation.untracedResult (m.runOn limits s) =
          Evaluation.untracedResult (m'.runOn limits t) :=
  forall₂_congr fun _ _ => imp_congr_right fun _ => Evaluation.agree_untraced_iff

/-- Two runs under different limits, without dice.  Unless the first one has a problem, the second
one has done nothing but add to its trace. -/
def TextCoupling.quiet (limits' : Limits) (start : Session) : TextCoupling where
  limits₁ := limits
  limits₂ := limits'
  rel s t := s.report.failed = true ∨ t.untraced = start.untraced
  stop _ s t := s.report.failed = true ∨ t.untraced = start.untraced
  step _ _ := True
  problem _ _ := True
  dice _ := False
  step_refl _ := trivial
  problem_refl _ _ := trivial
  rel_step := by
    rintro s t e e' h -
    rw [Session.untraced_addStep]
    refine h.imp_left ?_
    intro h
    unfold Session.addStep Report.addStep
    split <;> exact h
  rel_problem _ _ := .inl rfl
  rel_roll h := h.elim
  stop_tooDeep h := h
  stop_fault h _ _ _ _ := h
  rel_of_tooDeep h := h

end

end Reckoner
