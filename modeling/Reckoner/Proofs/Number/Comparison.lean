import Mathlib
import Reckoner.Proofs.Number.Finite

/-!
# Comparing doubles

Doubles are compared by their exponents first and by their mantissas after that.  Since every
magnitude has one form only, this is the order of the fractions they stand for
(`compare_unpack`).
-/

namespace Reckoner.Number

open Float.Model (UnpackedFloat)

/-! ## Magnitudes -/

namespace Scaled

variable {s s' : Scaled}

/-- A double with a greater exponent is greater. -/
theorem toRat_lt_of_exponent_lt (h : s.IsDouble) (h' : s'.IsDouble)
    (hexponent : s.exponent < s'.exponent) : s.toRat < s'.toRat := by
  have hleast := h.least_le
  have hfull : leastFullMantissa ≤ s'.mantissa := h'.full.resolve_right (by omega)
  have hmantissa : (s.mantissa : Rat) < 2 * leastFullMantissa := by exact_mod_cast h.lt
  have hfull : (leastFullMantissa : Rat) ≤ s'.mantissa := by exact_mod_cast hfull
  calc s.toRat < 2 * leastFullMantissa * 2 ^ s.exponent :=
        mul_lt_mul_of_pos_right hmantissa (two_zpow_pos _)
    _ = leastFullMantissa * 2 ^ (s.exponent + 1) := by
        rw [zpow_add_one₀ (by norm_num)]
        ring
    _ ≤ leastFullMantissa * 2 ^ s'.exponent :=
        mul_le_mul_of_nonneg_left (zpow_le_zpow_right₀ (by norm_num) hexponent)
          (Nat.cast_nonneg _)
    _ ≤ s'.toRat := mul_le_mul_of_nonneg_right hfull (two_zpow_pos _).le

/-- The order of the magnitudes is that of the exponents, and of the mantissas where these are
the same. -/
theorem compare_toRat (h : s.IsDouble) (h' : s'.IsDouble) :
    (compare s.exponent s'.exponent).then (compare s.mantissa s'.mantissa) =
      compare s.toRat s'.toRat := by
  rcases lt_trichotomy s.exponent s'.exponent with hlt | heq | hgt
  · rw [compare_lt_iff_lt.2 hlt, compare_lt_iff_lt.2 (toRat_lt_of_exponent_lt h h' hlt)]
    rfl
  · have hpos := two_zpow_pos s'.exponent
    rw [compare_eq_iff_eq.2 heq, Ordering.then, Scaled.toRat, Scaled.toRat, heq]
    rcases lt_trichotomy s.mantissa s'.mantissa with hlt | hsame | hgt
    · have hlt' : (s.mantissa : Rat) < s'.mantissa := by exact_mod_cast hlt
      rw [compare_lt_iff_lt.2 hlt, compare_lt_iff_lt.2 (mul_lt_mul_of_pos_right hlt' hpos)]
    · rw [compare_eq_iff_eq.2 hsame, hsame, compare_eq_iff_eq.2 rfl]
    · have hgt' : (s'.mantissa : Rat) < s.mantissa := by exact_mod_cast hgt
      rw [compare_gt_iff_gt.2 hgt, compare_gt_iff_gt.2 (mul_lt_mul_of_pos_right hgt' hpos)]
  · rw [compare_gt_iff_gt.2 hgt, compare_gt_iff_gt.2 (toRat_lt_of_exponent_lt h' h hgt)]
    rfl

theorem toRat_pos (h : 0 < s.mantissa) : 0 < s.toRat :=
  mul_pos (by exact_mod_cast h) (two_zpow_pos _)

end Scaled

/-! ## Doubles -/

theorem compare_neg (r s : Rat) : compare (-r) (-s) = (compare r s).swap := by
  rcases lt_trichotomy r s with hlt | heq | hgt
  · rw [compare_lt_iff_lt.2 hlt, compare_gt_iff_gt.2 (neg_lt_neg hlt)]
    rfl
  · rw [compare_eq_iff_eq.2 heq, compare_eq_iff_eq.2 (congrArg _ heq)]
    rfl
  · rw [compare_gt_iff_gt.2 hgt, compare_lt_iff_lt.2 (neg_lt_neg hgt)]
    rfl

/-- Finite doubles are in the order of the fractions that they stand for. -/
theorem compare_unpack {x y : Float} (hx : x.isFinite = true) (hy : y.isFinite = true) :
    x.toModel.unpack.compare y.toModel.unpack = some (compare (toRat x) (toRat y)) := by
  have hdouble := isDouble_unpack x.toModel
  have hdouble' := isDouble_unpack y.toModel
  rcases finite_cases hx with ⟨s, hux⟩ | ⟨s, m, e, hm, hux⟩ <;>
    rcases finite_cases hy with ⟨s', huy⟩ | ⟨s', m', e', hm', huy⟩ <;>
      rw [hux] at hdouble ⊢ <;> rw [huy] at hdouble' ⊢
  · rw [toRat_of_zero hux, toRat_of_zero huy, compare_eq_iff_eq.2 rfl]
    rfl
  · have hpos : 0 < Scaled.toRat ⟨m', e'⟩ := Scaled.toRat_pos hm'
    cases s' with
    | positive =>
      rw [toRat_of_zero hux, toRat_of_positive huy, compare_lt_iff_lt.2 hpos]
      rfl
    | negative =>
      rw [toRat_of_zero hux, toRat_of_negative huy, compare_gt_iff_gt.2 (neg_neg_of_pos hpos)]
      rfl
  · have hpos : 0 < Scaled.toRat ⟨m, e⟩ := Scaled.toRat_pos hm
    cases s with
    | positive =>
      rw [toRat_of_positive hux, toRat_of_zero huy, compare_gt_iff_gt.2 hpos]
      rfl
    | negative =>
      rw [toRat_of_negative hux, toRat_of_zero huy, compare_lt_iff_lt.2 (neg_neg_of_pos hpos)]
      rfl
  · have hpos : 0 < Scaled.toRat ⟨m, e⟩ := Scaled.toRat_pos hm
    have hpos' : 0 < Scaled.toRat ⟨m', e'⟩ := Scaled.toRat_pos hm'
    have hcompare := Scaled.compare_toRat hdouble hdouble'
    cases s with
    | positive =>
      cases s' with
      | positive =>
        rw [toRat_of_positive hux, toRat_of_positive huy, ← hcompare]
        rfl
      | negative =>
        rw [toRat_of_positive hux, toRat_of_negative huy, compare_gt_iff_gt.2 (by linarith)]
        rfl
    | negative =>
      cases s' with
      | positive =>
        rw [toRat_of_negative hux, toRat_of_positive huy, compare_lt_iff_lt.2 (by linarith)]
        rfl
      | negative =>
        rw [toRat_of_negative hux, toRat_of_negative huy, compare_neg, ← hcompare]
        rfl

theorem lt_iff_toRat_lt {x y : Float} (hx : x.isFinite = true) (hy : y.isFinite = true) :
    x < y ↔ toRat x < toRat y := by
  show decide ((x.toModel.unpack.compare y.toModel.unpack == some .lt) = true) = true ↔ _
  rw [compare_unpack hx hy, decide_eq_true_iff, beq_iff_eq, Option.some.injEq, compare_lt_iff_lt]

theorem le_iff_toRat_le {x y : Float} (hx : x.isFinite = true) (hy : y.isFinite = true) :
    x ≤ y ↔ toRat x ≤ toRat y := by
  show decide ((Option.any (·.isLE) (x.toModel.unpack.compare y.toModel.unpack)) = true) =
    true ↔ _
  rw [compare_unpack hx hy, decide_eq_true_iff, Option.any_some, ← compare_le_iff_le]
  cases compare (toRat x) (toRat y) <;> simp

theorem toRat_abs (x : Float) : toRat x.abs = |toRat x| := by
  have hscaled : scaled x.abs = scaled x := by
    rw [scaled, scaled, unpack_abs]
    cases x.toModel.unpack <;> rfl
  rw [toRat, isNegative_abs, magnitude, hscaled, abs_toRat, magnitude]
  rfl

end Reckoner.Number
