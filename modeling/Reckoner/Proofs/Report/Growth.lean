import Mathlib
import Reckoner.Proofs.Dice.Summary

/-!
# Reports that grow

Whatever is done to a report only adds to it (`Report.GrowsInto`), and leaves it with a flag that
tells whether there are problems and with a trace within its limit (`Report.IsSound`).
`Report.Continues` states both at once.  What is more, the trace is not asked for without a problem
(`Report.Advances`); this is shown here of each thing that is done to a report.
-/

namespace Reckoner

namespace Report

/-! ## Sound reports -/

/-- A report tells whether there are problems, and its trace is cut at the limit only. -/
structure IsSound (limits : Limits) (r : Report) : Prop where
  /-- The report says that there are problems if there are. -/
  failed_iff : r.failed = true ↔ r.problems ≠ []
  /-- The trace is within its limit. -/
  length_steps_le : (r.steps.length : Int) ≤ max 0 limits.steps
  /-- No step is left out before the trace is full. -/
  full_of_dropped : 0 < r.dropped → (r.steps.length : Int) = max 0 limits.steps

theorem isSound_empty (limits : Limits) : IsSound limits {} where
  failed_iff := by simp
  length_steps_le := le_max_left 0 _
  full_of_dropped h := absurd h (Nat.lt_irrefl 0)

/-! ## Growth -/

/-- The second report has everything that the first one has. -/
structure GrowsInto (r q : Report) : Prop where
  /-- The problems come first among the problems. -/
  problems : r.problems <+: q.problems
  /-- The steps come first among the steps. -/
  steps : r.steps <+: q.steps
  /-- That there is a problem is not forgotten. -/
  failed : r.failed = true → q.failed = true
  /-- That a problem asks for the trace is not forgotten. -/
  verbose : r.verbose = true → q.verbose = true
  /-- The steps that were left out stay left out. -/
  dropped : r.dropped ≤ q.dropped

variable {r q p : Report} {limits : Limits}

theorem GrowsInto.refl (r : Report) : r.GrowsInto r :=
  ⟨List.prefix_rfl, List.prefix_rfl, id, id, le_rfl⟩

theorem GrowsInto.trans (h : r.GrowsInto q) (h' : q.GrowsInto p) : r.GrowsInto p where
  problems := h.problems.trans h'.problems
  steps := h.steps.trans h'.steps
  failed := h'.failed ∘ h.failed
  verbose := h'.verbose ∘ h.verbose
  dropped := h.dropped.trans h'.dropped

/-- The second report has everything that the first one has, and is sound if the first one is. -/
structure Continues (limits : Limits) (r q : Report) : Prop where
  /-- The second report has everything that the first one has. -/
  grows : r.GrowsInto q
  /-- The second report is sound if the first one is. -/
  isSound : r.IsSound limits → q.IsSound limits

/-- The second report continues the first one, and the trace is not asked for without a problem. -/
structure Advances (limits : Limits) (r q : Report) : Prop extends Continues limits r q where
  /-- If the first report has a problem when the trace is asked for, so has the second one. -/
  failed : (r.verbose = true → r.failed = true) → q.verbose = true → q.failed = true

theorem Continues.trans (h : r.Continues limits q) (h' : q.Continues limits p) :
    r.Continues limits p := ⟨h.grows.trans h'.grows, h'.isSound ∘ h.isSound⟩

theorem Advances.refl (r : Report) : r.Advances limits r := ⟨⟨.refl r, id⟩, id⟩

theorem Advances.trans (h : r.Advances limits q) (h' : q.Advances limits p) :
    r.Advances limits p := ⟨h.toContinues.trans h'.toContinues, h'.failed ∘ h.failed⟩

/-! ## What is done to a report -/

theorem advances_addProblem (r : Report) (p : Problem) : r.Advances limits (r.addProblem p) where
  grows :=
    ⟨List.prefix_append _ _, List.prefix_rfl, fun _ => rfl, fun h => by simp [addProblem, h],
      le_rfl⟩
  isSound h := ⟨by simp [addProblem], h.length_steps_le, h.full_of_dropped⟩
  failed _ _ := rfl

/-- A step is added while the trace is not full, and counted from then on. -/
theorem advances_addStep (r : Report) (e : Step) : r.Advances limits (r.addStep limits e) := by
  unfold addStep
  split
  · rename_i hfull
    refine ⟨⟨⟨List.prefix_rfl, List.prefix_rfl, id, id, Nat.le_succ _⟩, fun h => ?_⟩, id⟩
    refine ⟨h.failed_iff, h.length_steps_le, fun _ => ?_⟩
    exact le_antisymm h.length_steps_le (max_le (Int.natCast_nonneg _) hfull)
  · rename_i hroom
    refine ⟨⟨⟨List.prefix_rfl, List.prefix_append _ _, id, id, le_rfl⟩, fun h => ?_⟩, id⟩
    have hlength : ((r.steps ++ [e]).length : Int) = r.steps.length + 1 := by simp
    refine ⟨h.failed_iff, ?_, fun hdropped => ?_⟩
    · rw [hlength]
      omega
    · have := h.full_of_dropped hdropped
      omega

/-- A step changes nothing of a report but its trace. -/
theorem addStep_eq (limits : Limits) (r : Report) (e : Step) :
    r.addStep limits e =
      { r with steps := (r.addStep limits e).steps, dropped := (r.addStep limits e).dropped } := by
  unfold addStep
  split <;> rfl

/-- How many steps were recorded, in the trace or beyond its limit. -/
def recorded (r : Report) : Nat := r.steps.length + r.dropped

/-- A step is recorded once. -/
theorem recorded_addStep (limits : Limits) (r : Report) (e : Step) :
    (r.addStep limits e).recorded = r.recorded + 1 := by
  unfold recorded addStep
  split <;> simp <;> omega

/-- Dice and their summary are not looked at. -/
theorem advances_of_eq (hproblems : q.problems = r.problems) (hsteps : q.steps = r.steps)
    (hfailed : q.failed = r.failed) (hverbose : q.verbose = r.verbose)
    (hdropped : q.dropped = r.dropped) : r.Advances limits q where
  grows := by
    refine ⟨?_, ?_, ?_, ?_, ?_⟩ <;> simp [hproblems, hsteps, hfailed, hverbose, hdropped]
  failed h := by rwa [hverbose, hfailed]
  isSound h := by
    refine ⟨?_, ?_, ?_⟩
    · rw [hfailed, hproblems, h.failed_iff]
    · rw [hsteps]
      exact h.length_steps_le
    · rw [hdropped, hsteps]
      exact h.full_of_dropped

theorem advances_addThrow (r : Report) (faces : Int) (values : List Int) :
    r.Advances limits (r.addThrow faces values) := advances_of_eq rfl rfl rfl rfl rfl

/-- A report that differs in the summary only. -/
theorem advances_withSummary (r q : Report) : r.Advances limits (r.withSummary q) :=
  advances_of_eq rfl rfl rfl rfl rfl

theorem advances_listRolls (r : Report) (faces : Int) (shown : List Int) (more : Bool) :
    r.Advances limits (Dice.listRolls limits faces shown more r) := by
  rw [@Dice.listRolls_eq r r rfl rfl]
  exact advances_withSummary _ _

end Report

end Reckoner
