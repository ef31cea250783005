import Mathlib
import Reckoner.Dice.Roll

/-!
# The summary of the rolls

Listing dice looks at nothing of a report but its summary, and changes nothing else
(`Dice.listRolls_eq`).  So reports with the same summary have the same one again after the
same dice were listed in both.
-/

namespace Reckoner

namespace Report

/-- The report with the summary of another one. -/
def withSummary (r summary : Report) : Report :=
  { r with rolls := summary.rolls, listings := summary.listings }

variable {r q : Report} {limits : Limits}

theorem withSummary_eq (hrolls : r.rolls = q.rolls) (hlistings : r.listings = q.listings) :
    r.withSummary q = r := by
  rw [withSummary, ← hrolls, ← hlistings]

theorem beginListing_withSummary (faces : Int) :
    (r.withSummary q).beginListing limits faces = r.withSummary (q.beginListing limits faces) := by
  simp only [beginListing, withSummary]
  by_cases h : limits.listedDice < (q.listings + 1 : Nat) <;> simp only [if_pos, h] <;> rfl

theorem listRoll_withSummary (value : Int) :
    (r.withSummary q).listRoll limits value = r.withSummary (q.listRoll limits value) := by
  by_cases h : limits.listedDice < q.listings <;> simp [listRoll, withSummary, unlisted, h]

theorem endListing_withSummary (more : Bool) :
    (r.withSummary q).endListing limits more = r.withSummary (q.endListing limits more) := by
  by_cases h : limits.listedDice < q.listings <;> simp [endListing, withSummary, unlisted, h]

theorem foldl_listRoll_withSummary (shown : List Int) :
    shown.foldl (listRoll limits) (r.withSummary q) =
      r.withSummary (shown.foldl (listRoll limits) q) := by
  induction shown generalizing q with
  | nil => rfl
  | cons value shown ih => rw [List.foldl_cons, listRoll_withSummary, ih, List.foldl_cons]

end Report

/-- Listing dice is a matter of the summary: the same dice listed in reports with the same summary
leave them with the same summary, and with all else they had. -/
theorem Dice.listRolls_eq {r q : Report} (hrolls : r.rolls = q.rolls)
    (hlistings : r.listings = q.listings) (limits : Limits) (faces : Int) (shown : List Int)
    (more : Bool) :
    listRolls limits faces shown more r =
      r.withSummary (listRolls limits faces shown more q) := by
  have h : listRolls limits faces shown more (r.withSummary q) =
      r.withSummary (listRolls limits faces shown more q) := by
    rw [listRolls, Report.beginListing_withSummary, Report.foldl_listRoll_withSummary,
      Report.endListing_withSummary, listRolls]
  rwa [Report.withSummary_eq hrolls hlistings] at h

end Reckoner
