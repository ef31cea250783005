import Mathlib
import Reckoner.Proofs.Dice.Listing
import Reckoner.Proofs.Report.Growth

/-!
# Reports that list rolls

A report lists some rolls (`Report.Lists`) if its summary is that of the loud ones, it remembers
their dice, and its trace has their steps where they were recorded, as far as its limit allows
(`Report.Traces`).  What adds no dice to a report leaves the rolls that it lists
(`Report.Lists.of_advances`), and one more roll is listed after them (`Report.Lists.afterRoll`).
-/

namespace Reckoner

namespace Report

/-- The trace of the report has the steps of the rolls. -/
structure Traces (limits : Limits) (rolls : List Dice.Roll) (r : Report) : Prop where
  /-- The trace is cut at its limit. -/
  isSound : r.IsSound limits
  /-- Every roll was recorded. -/
  recorded : ∀ roll ∈ rolls, roll.recorded < r.recorded
  /-- Every roll has its step where it was recorded, unless that is beyond the limit. -/
  step : ∀ roll ∈ rolls, r.steps[roll.recorded]? =
    if (roll.recorded : Int) < limits.steps then some (roll.step limits) else none

/-- The report shows the rolls and no others. -/
structure Lists (limits : Limits) (rolls : List Dice.Roll) (r : Report) : Prop
    extends r.Traces limits rolls where
  /-- The summary is that of the loud rolls. -/
  summary : r.rolls = Dice.summary limits (rolls.filter Dice.Roll.loud)
  /-- All loud rolls are counted. -/
  listings : r.listings = (rolls.filter Dice.Roll.loud).length
  /-- All dice are remembered. -/
  thrown : r.thrown = rolls.map Dice.Roll.throw

variable {limits : Limits} {rolls : List Dice.Roll} {r q : Report}

theorem lists_empty (hlimit : 0 ≤ limits.listedDice) : Lists limits [] {} where
  isSound := isSound_empty limits
  recorded := by simp
  step := by simp
  summary := by simp [Dice.summary, String.join_nil, not_lt.2 hlimit]
  listings := rfl
  thrown := rfl

theorem IsSound.getElem?_eq_none (h : r.IsSound limits) {n : Nat}
    (hn : ¬ (n : Int) < limits.steps) : r.steps[n]? = none := by
  have := h.length_steps_le
  rw [List.getElem?_eq_none_iff]
  omega

/-- The next step goes where it is recorded, unless that is beyond the limit. -/
theorem IsSound.getElem?_addStep (h : r.IsSound limits) (e : Step) :
    (r.addStep limits e).steps[r.recorded]? =
      if (r.recorded : Int) < limits.steps then some e else none := by
  have hfull := h.full_of_dropped
  unfold addStep recorded
  split
  · rename_i hlimit
    rw [List.getElem?_eq_none_iff.2 (Nat.le_add_right _ _), if_neg (by omega)]
  · rename_i hlimit
    have hdropped : r.dropped = 0 := by omega
    rw [hdropped, Nat.add_zero, if_pos (by omega)]
    simp

/-- A report that grows keeps the steps of the rolls. -/
theorem Traces.of_advances (h : r.Traces limits rolls) (hadvances : r.Advances limits q) :
    q.Traces limits rolls where
  isSound := hadvances.isSound h.isSound
  recorded roll hroll := (h.recorded roll hroll).trans_le
    (Nat.add_le_add hadvances.grows.steps.length_le hadvances.grows.dropped)
  step roll hroll := by
    have hstep := h.step roll hroll
    split_ifs at hstep ⊢ with hstored
    · obtain ⟨hlt, heq⟩ := List.getElem?_eq_some_iff.1 hstep
      rw [List.prefix_iff_getElem?.1 hadvances.grows.steps _ hlt, heq]
    · exact (hadvances.isSound h.isSound).getElem?_eq_none hstored

/-- The step of one more roll. -/
theorem Traces.addStep {roll : Dice.Roll} (h : r.Traces limits rolls)
    (hroll : roll.recorded = r.recorded) :
    (r.addStep limits (roll.step limits)).Traces limits (rolls ++ [roll]) := by
  have hgrown := h.of_advances (advances_addStep r (roll.step limits))
  refine ⟨hgrown.isSound, ?_, ?_⟩ <;>
    refine List.forall_mem_append.2 ⟨?_, List.forall_mem_singleton.2 ?_⟩
  · exact hgrown.recorded
  · rw [hroll, recorded_addStep]
    exact Nat.lt_succ_self _
  · exact hgrown.step
  · rw [hroll]
    exact h.isSound.getElem?_addStep _

/-- A report that grows without dice lists the same rolls. -/
theorem Lists.of_advances (h : r.Lists limits rolls) (hadvances : r.Advances limits q)
    (hrolls : q.rolls = r.rolls) (hlistings : q.listings = r.listings)
    (hthrown : q.thrown = r.thrown) : q.Lists limits rolls where
  toTraces := h.toTraces.of_advances hadvances
  summary := hrolls.trans h.summary
  listings := hlistings.trans h.listings
  thrown := hthrown.trans h.thrown

theorem Lists.addProblem (h : r.Lists limits rolls) (p : Problem) :
    (r.addProblem p).Lists limits rolls :=
  h.of_advances (advances_addProblem r p) rfl rfl rfl

theorem Lists.addStep (h : r.Lists limits rolls) (e : Step) :
    (r.addStep limits e).Lists limits rolls := by
  refine h.of_advances (advances_addStep r e) ?_ ?_ ?_ <;> rw [addStep_eq]

/-! ## One more roll -/

variable {past : List Dice.Roll}

/-- The report after a roll. -/
def afterRoll (limits : Limits) (roll : Dice.Roll) (r : Report) : Report :=
  let thrown := r.addThrow roll.faces roll.thrown
  let listing := if roll.loud then
    Dice.listRolls limits roll.faces (roll.shown limits) (roll.more limits) thrown else thrown
  listing.addStep limits (roll.step limits)

/-- A report lists one more roll when its step is added after its line. -/
theorem Lists.record {roll : Dice.Roll} {listing : Report} (h : r.Lists limits past)
    (hroll : roll.recorded = r.recorded) (hadvances : r.Advances limits listing)
    (hrecorded : listing.recorded = r.recorded)
    (hsummary : listing.rolls = Dice.summary limits ((past ++ [roll]).filter Dice.Roll.loud))
    (hlistings : listing.listings = ((past ++ [roll]).filter Dice.Roll.loud).length)
    (hthrown : listing.thrown = r.thrown ++ [roll.throw]) :
    (listing.addStep limits (roll.step limits)).Lists limits (past ++ [roll]) where
  toTraces := (h.toTraces.of_advances hadvances).addStep (hroll.trans hrecorded.symm)
  summary := by
    rw [addStep_eq]
    exact hsummary
  listings := by
    rw [addStep_eq]
    exact hlistings
  thrown := by
    rw [addStep_eq, List.map_append, ← h.thrown]
    exact hthrown

/-- A report lists one more roll after it was made. -/
theorem Lists.afterRoll (hdice : 0 ≤ limits.listedDice) {roll : Dice.Roll}
    (hshown : roll.shown limits ≠ []) (h : r.Lists limits past)
    (hroll : roll.recorded = r.recorded) :
    (r.afterRoll limits roll).Lists limits (past ++ [roll]) := by
  have hthrown : r.Advances limits (r.addThrow roll.faces roll.thrown) :=
    advances_addThrow _ _ _
  unfold Report.afterRoll
  cases hloud : roll.loud with
  | false =>
    have hfilter : (past ++ [roll]).filter Dice.Roll.loud = past.filter Dice.Roll.loud := by
      simp [hloud]
    refine h.record hroll hthrown rfl ?_ ?_ rfl <;> rw [hfilter]
    · exact h.summary
    · exact h.listings
  | true =>
    have hfilter : (past ++ [roll]).filter Dice.Roll.loud =
        past.filter Dice.Roll.loud ++ [roll] := by
      simp [hloud]
    have hsame := @Dice.listRolls_eq (r.addThrow roll.faces roll.thrown) _ rfl rfl limits roll.faces
      (roll.shown limits) (roll.more limits)
    refine h.record hroll (hthrown.trans (advances_listRolls _ _ _ _)) ?_ ?_ ?_ ?_
    · rw [if_pos rfl, hsame]
      rfl
    · rw [hfilter]
      exact Dice.listRolls_summary roll hdice hshown h.summary h.listings
    · rw [if_pos rfl, hfilter, Dice.listings_listRolls, List.length_append, ← h.listings]
      rfl
    · rw [if_pos rfl, hsame]
      rfl

end Report

end Reckoner
