import Mathlib
import Reckoner.Proofs.Number.Finite
import Reckoner.Proofs.Number.Product

/-!
# The errors of products

A fraction from one on is rounded with a relative error of at most `unitRoundoff`
(`isNear_toRat_ofRat`).  The errors of a product multiply: a product of such doubles is as near to
the exact product as its factors and one more rounding allow (`IsNear.mul`).
-/

namespace Reckoner.Number

open Float.Model (UnpackedFloat)

/-! ## The number of a rounded fraction -/

/-- A rounded fraction is a whole number of units of its last place. -/
theorem toRat_ofRat {r : Rat} (hpos : 0 < r) (hr : r < roundingBound) :
    toRat (ofRat r) = Scaled.roundedUnits r * 2 ^ lastPlace r := by
  have habs : |r| = r := abs_of_pos hpos
  have hsign : signOf r = .positive := if_neg hpos.le.not_gt
  have hunpack := unpack_ofRat (r := r) (by rwa [habs])
  rw [habs, hsign] at hunpack
  have hnearest : (Scaled.nearest r).toRat = Scaled.roundedUnits r * 2 ^ lastPlace r := by
    rcases lt_or_eq_of_le (Scaled.roundedUnits_le hpos) with hlt | hcarry
    · have hunits : (((Scaled.roundedUnits r).toNat : Nat) : Rat) = Scaled.roundedUnits r := by
        exact_mod_cast Int.toNat_of_nonneg (Scaled.roundedUnits_nonneg hpos)
      rw [Scaled.nearest_of_lt hpos hlt, Scaled.toRat, hunits]
    · rw [Scaled.nearest_of_carry hcarry, hcarry, Scaled.toRat, zpow_add₀ (by norm_num)]
      push_cast
      ring
  rw [← hnearest]
  by_cases hm : 0 < (Scaled.nearest r).mantissa
  · rw [Scaled.unpacked, dif_pos hm] at hunpack
    exact toRat_of_positive hunpack
  · rw [Scaled.unpacked, dif_neg hm] at hunpack
    rw [toRat_of_zero hunpack, Scaled.toRat, Nat.eq_zero_of_not_pos hm, Nat.cast_zero, zero_mul]

/-- A fraction from one on has all bits that a double keeps. -/
theorem lastPlace_of_one_le {r : Rat} (h : 1 ≤ r) :
    lastPlace r ≠ leastExponent ∧ -52 ≤ lastPlace r := by
  have hexponent : 0 ≤ binaryExponent r := by
    have hlt := (binaryExponent_spec (zero_lt_one.trans_le h)).2
    have := (zpow_lt_zpow_iff_right₀ (by norm_num : (1 : Rat) < 2)).1
      ((zpow_zero (2 : Rat)).trans_le h |>.trans_lt hlt)
    omega
  simp only [lastPlace, leastExponent]
  omega

theorem one_le_toRat_ofRat {r : Rat} (h : 1 ≤ r) (hr : r < roundingBound) :
    1 ≤ toRat (ofRat r) := by
  have hpos : 0 < r := zero_lt_one.trans_le h
  obtain ⟨hplace, hlast⟩ := lastPlace_of_one_le h
  have hunits : (2 : Rat) ^ 52 ≤ Scaled.roundedUnits r := by
    exact_mod_cast Scaled.le_roundedUnits hpos hplace
  rw [toRat_ofRat hpos hr]
  calc (1 : Rat) = 2 ^ 52 * 2 ^ (-52 : Int) := by norm_num
    _ ≤ Scaled.roundedUnits r * 2 ^ lastPlace r :=
        mul_le_mul hunits (zpow_le_zpow_right₀ (by norm_num) hlast) (two_zpow_pos _).le
          ((by norm_num : (0 : Rat) ≤ 2 ^ 52).trans hunits)

/-! ## Relative errors -/

/-- The greatest relative error of one rounding. -/
def unitRoundoff : Rat := 1 / 2 ^ 53

theorem unitRoundoff_bounds : 0 < unitRoundoff ∧ unitRoundoff < 1 := by
  norm_num [unitRoundoff]

theorem one_le_one_add_unitRoundoff : 1 ≤ 1 + unitRoundoff := by
  have := unitRoundoff_bounds.1
  linarith

/-- The errors of 340 roundings are together less than a half. -/
theorem unitRoundoff_pow {j : Nat} (h : j ≤ 340) :
    1 / 2 ≤ (1 - unitRoundoff) ^ j ∧ (1 + unitRoundoff) ^ j ≤ 2 := by
  obtain ⟨hpos, hlt⟩ := unitRoundoff_bounds
  have hsum : (j : Rat) * unitRoundoff ≤ 1 / 2 := by
    have hj : (j : Rat) ≤ 340 := by exact_mod_cast h
    calc (j : Rat) * unitRoundoff ≤ 340 * unitRoundoff := mul_le_mul_of_nonneg_right hj hpos.le
      _ ≤ 1 / 2 := by norm_num [unitRoundoff]
  have hhalf : 1 / 2 ≤ (1 - unitRoundoff) ^ j := by
    have hbernoulli := one_add_mul_le_pow (show -2 ≤ -unitRoundoff by linarith) j
    rw [← sub_eq_add_neg] at hbernoulli
    linarith
  refine ⟨hhalf, ?_⟩
  have hproduct : (1 - unitRoundoff) ^ j * (1 + unitRoundoff) ^ j ≤ 1 := by
    rw [← mul_pow]
    refine pow_le_one₀ (mul_nonneg (by linarith) (by linarith)) ?_
    have := mul_pos hpos hpos
    linarith
  have hgreat : 0 ≤ (1 + unitRoundoff) ^ j := pow_nonneg (by linarith) j
  have := mul_le_mul_of_nonneg_right hhalf hgreat
  linarith

/-- The value is as near to the exact number as so many roundings allow. -/
structure IsNear (roundings : Nat) (ideal value : Rat) : Prop where
  le : ideal * (1 - unitRoundoff) ^ roundings ≤ value
  ge : value ≤ ideal * (1 + unitRoundoff) ^ roundings

theorem IsNear.refl (r : Rat) : IsNear 0 r r := ⟨by simp, by simp⟩

/-- The errors of two factors multiply. -/
theorem IsNear.mul {j k : Nat} {ideal ideal' value value' : Rat} (h : IsNear j ideal value)
    (h' : IsNear k ideal' value') (hpos : 0 ≤ ideal) (hpos' : 0 ≤ ideal') :
    IsNear (j + k) (ideal * ideal') (value * value') := by
  obtain ⟨hunit, hunit'⟩ := unitRoundoff_bounds
  have hleast : ∀ (i : Nat) {e : Rat}, 0 ≤ e → 0 ≤ e * (1 - unitRoundoff) ^ i :=
    fun i _ he => mul_nonneg he (pow_nonneg (by linarith) i)
  have hvalue : 0 ≤ value := (hleast j hpos).trans h.le
  have hvalue' : 0 ≤ value' := (hleast k hpos').trans h'.le
  constructor
  · calc ideal * ideal' * (1 - unitRoundoff) ^ (j + k)
        = ideal * (1 - unitRoundoff) ^ j * (ideal' * (1 - unitRoundoff) ^ k) := by ring
      _ ≤ value * value' := mul_le_mul h.le h'.le (hleast k hpos') hvalue
  · calc value * value'
        ≤ ideal * (1 + unitRoundoff) ^ j * (ideal' * (1 + unitRoundoff) ^ k) :=
          mul_le_mul h.ge h'.ge hvalue' (hvalue.trans h.ge)
      _ = ideal * ideal' * (1 + unitRoundoff) ^ (j + k) := by ring

/-- What is near to a value that is near. -/
theorem IsNear.trans {j k : Nat} {ideal value value' : Rat} (h : IsNear j ideal value)
    (h' : IsNear k value value') : IsNear (j + k) ideal value' := by
  obtain ⟨hunit, hunit'⟩ := unitRoundoff_bounds
  constructor
  · calc ideal * (1 - unitRoundoff) ^ (j + k)
        = ideal * (1 - unitRoundoff) ^ j * (1 - unitRoundoff) ^ k := by ring
      _ ≤ value * (1 - unitRoundoff) ^ k :=
          mul_le_mul_of_nonneg_right h.le (pow_nonneg (by linarith) k)
      _ ≤ value' := h'.le
  · calc value' ≤ value * (1 + unitRoundoff) ^ k := h'.ge
      _ ≤ ideal * (1 + unitRoundoff) ^ j * (1 + unitRoundoff) ^ k :=
          mul_le_mul_of_nonneg_right h.ge (pow_nonneg (by linarith) k)
      _ = ideal * (1 + unitRoundoff) ^ (j + k) := by ring

/-- A fraction from one on is rounded with one relative error. -/
theorem isNear_toRat_ofRat {r : Rat} (h : 1 ≤ r) (hr : r < roundingBound) :
    IsNear 1 r (toRat (ofRat r)) := by
  have hpos : 0 < r := zero_lt_one.trans_le h
  have hplace := two_zpow_pos (lastPlace r)
  have hunits := le_div_lastPlace hpos (lastPlace_of_one_le h).1
  have herror : |(Scaled.roundedUnits r : Rat) - r / 2 ^ lastPlace r| ≤
      r / 2 ^ lastPlace r * unitRoundoff := by
    refine (abs_roundHalfEven_sub_le _).trans ?_
    calc (1 / 2 : Rat) = leastFullMantissa * unitRoundoff := by
          norm_num [leastFullMantissa, unitRoundoff]
      _ ≤ r / 2 ^ lastPlace r * unitRoundoff :=
          mul_le_mul_of_nonneg_right hunits unitRoundoff_bounds.1.le
  have hscaled : r = r / 2 ^ lastPlace r * 2 ^ lastPlace r :=
    (div_mul_cancel₀ r hplace.ne').symm
  obtain ⟨hbelow, habove⟩ := abs_le.1 herror
  rw [toRat_ofRat hpos hr]
  constructor
  · calc r * (1 - unitRoundoff) ^ 1
        = (r / 2 ^ lastPlace r - r / 2 ^ lastPlace r * unitRoundoff) * 2 ^ lastPlace r := by
          linear_combination (1 - unitRoundoff) * hscaled
      _ ≤ Scaled.roundedUnits r * 2 ^ lastPlace r :=
          mul_le_mul_of_nonneg_right (by linarith) hplace.le
  · calc (Scaled.roundedUnits r : Rat) * 2 ^ lastPlace r
        ≤ (r / 2 ^ lastPlace r + r / 2 ^ lastPlace r * unitRoundoff) * 2 ^ lastPlace r :=
          mul_le_mul_of_nonneg_right (by linarith) hplace.le
      _ = r * (1 + unitRoundoff) ^ 1 := by
          linear_combination -(1 + unitRoundoff) * hscaled

/-! ## Products of doubles -/

theorem toRat_lt {x : Float} (h : x.isFinite = true) : toRat x < roundingBound :=
  (le_abs_self _).trans_lt ((abs_toRat x).trans_lt (magnitude_lt h))

/-- A finite product has finite factors. -/
theorem isFinite_of_mul {x y : Float} (h : (x * y).isFinite = true) : x.isFinite = true := by
  by_contra hx
  have hproduct : x * y =
      .ofModel (.pack (UnpackedFloat.mul .binary64 x.toModel.unpack y.toModel.unpack)) := rfl
  have hunpack : ∀ u : UnpackedFloat, IsDouble u → u.isFinite = false →
      (Float.ofModel (.pack u)).isFinite = false := by
    intro u hu hfinite
    show (Float.Model.pack u).unpack.isFinite = false
    rw [unpack_pack hu, hfinite]
  refine absurd h (ne_true_of_eq_false ?_)
  rw [hproduct]
  have hx' : x.toModel.unpack.isFinite = false := Bool.eq_false_iff.2 hx
  revert hx'
  cases x.toModel.unpack with
  | notANumber => exact fun _ => hunpack _ trivial rfl
  | infinity s =>
    intro _
    cases y.toModel.unpack <;> exact hunpack _ trivial rfl
  | zero s => exact fun hx' => absurd hx' (by simp [UnpackedFloat.isFinite])
  | finite s m e hm => exact fun hx' => absurd hx' (by simp [UnpackedFloat.isFinite])

end Reckoner.Number
