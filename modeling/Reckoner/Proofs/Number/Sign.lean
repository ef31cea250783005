import Mathlib
import Reckoner.Proofs.Number.Rounding

/-!
# The signs of doubles

A finite double is its magnitude with its sign, but for the sign of zero (`negateIf_abs`), and
equal doubles are the same double, again but for the sign of zero (`unsigned_eq_of_beq`).
-/

namespace Reckoner.Number

open Float.Model (UnpackedFloat)

/-! ## Doubles by what they are unpacked to -/

theorem eq_of_unpack_eq {x y : Float} (h : x.toModel.unpack = y.toModel.unpack) : x = y := by
  obtain ⟨x⟩ := x
  obtain ⟨y⟩ := y
  rw [← pack_unpack x, ← pack_unpack y, h]

theorem unpack_zero : (0 : Float).toModel.unpack = .zero .positive := by
  rw [zero_eq]
  exact unpack_pack trivial

theorem IsDouble.abs {u : UnpackedFloat} (h : IsDouble u) : IsDouble u.abs := by
  cases u <;> exact h

theorem IsDouble.neg {u : UnpackedFloat} (h : IsDouble u) : IsDouble u.neg := by
  cases u <;> exact h

theorem unpack_abs (x : Float) : x.abs.toModel.unpack = x.toModel.unpack.abs :=
  unpack_pack (isDouble_unpack x.toModel).abs

theorem unpack_neg (x : Float) : (-x).toModel.unpack = x.toModel.unpack.neg :=
  unpack_pack (isDouble_unpack x.toModel).neg

theorem lt_zero_iff {x : Float} : x < 0 ↔ x.toModel.unpack.lt (.zero .positive) = true := by
  show decide (x.toModel.unpack.lt (0 : Float).toModel.unpack = true) = true ↔ _
  rw [unpack_zero, decide_eq_true_iff]

theorem beq_iff {x y : Float} :
    (x == y) = true ↔ x.toModel.unpack.compare y.toModel.unpack = some .eq := by
  show (x.toModel.unpack.compare y.toModel.unpack == some .eq) = true ↔ _
  rw [beq_iff_eq]

/-- A finite double is a zero or has a mantissa. -/
theorem finite_cases {x : Float} (h : x.isFinite = true) :
    (∃ s, x.toModel.unpack = .zero s) ∨ ∃ s m e hm, x.toModel.unpack = .finite s m e hm := by
  have hfinite : x.toModel.unpack.isFinite = true := h
  cases hx : x.toModel.unpack with
  | notANumber => simp [hx, UnpackedFloat.isFinite] at hfinite
  | infinity s => simp [hx, UnpackedFloat.isFinite] at hfinite
  | zero s => exact .inl ⟨s, rfl⟩
  | finite s m e hm => exact .inr ⟨s, m, e, hm, rfl⟩

/-! ## Magnitudes -/

theorem isFinite_abs (x : Float) : x.abs.isFinite = x.isFinite := by
  show x.abs.toModel.unpack.isFinite = x.toModel.unpack.isFinite
  rw [unpack_abs]
  cases x.toModel.unpack <;> rfl

theorem isFinite_neg (x : Float) : (-x).isFinite = x.isFinite := by
  show (-x).toModel.unpack.isFinite = x.toModel.unpack.isFinite
  rw [unpack_neg]
  cases x.toModel.unpack <;> rfl

theorem isFinite_negateIf (negative : Bool) (x : Float) :
    (negateIf negative x).isFinite = x.isFinite := by
  cases negative
  · rfl
  · exact isFinite_neg x

theorem isNegative_abs (x : Float) : isNegative x.abs = false := by
  rw [isNegative, unpack_abs]
  cases x.toModel.unpack <;> rfl

theorem abs_abs (x : Float) : x.abs.abs = x.abs := by
  refine eq_of_unpack_eq ?_
  rw [unpack_abs, unpack_abs]
  cases x.toModel.unpack <;> rfl

theorem magnitude_nonneg (x : Float) : 0 ≤ magnitude x :=
  mul_nonneg (Nat.cast_nonneg _) (two_zpow_pos _).le

theorem toRat_of_zero {x : Float} {s : UnpackedFloat.Sign} (h : x.toModel.unpack = .zero s) :
    toRat x = 0 := by
  simp [toRat, magnitude, scaled, Scaled.toRat, h]

theorem toRat_of_positive {x : Float} {m : Nat} {e : Int} {hm : 0 < m}
    (h : x.toModel.unpack = .finite .positive m e hm) : toRat x = Scaled.toRat ⟨m, e⟩ := by
  simp [toRat, isNegative, magnitude, scaled, h]

theorem toRat_of_negative {x : Float} {m : Nat} {e : Int} {hm : 0 < m}
    (h : x.toModel.unpack = .finite .negative m e hm) : toRat x = -Scaled.toRat ⟨m, e⟩ := by
  simp [toRat, isNegative, magnitude, scaled, h]

/-- The magnitude of a finite double is below the bound of the range. -/
theorem magnitude_lt {x : Float} (h : x.isFinite = true) : magnitude x < roundingBound := by
  have hrounded : (ofRat (magnitude x)).isFinite = true := by
    rw [ofRat_magnitude h, isFinite_abs, h]
  rw [isFinite_ofRat_iff, abs_of_nonneg (magnitude_nonneg x)] at hrounded
  exact hrounded

/-! ## The sign of zero -/

/-- The number, with the positive zero for the negative one. -/
def unsigned (x : Float) : Float := if x == 0 then 0 else x

theorem unsigned_of_zero {x : Float} {s : UnpackedFloat.Sign} (h : x.toModel.unpack = .zero s) :
    unsigned x = 0 := by
  rw [unsigned, if_pos (beq_iff.2 (by rw [h, unpack_zero]; rfl))]

theorem unsigned_of_finite {x : Float} {s : UnpackedFloat.Sign} {m : Nat} {e : Int} {hm : 0 < m}
    (h : x.toModel.unpack = .finite s m e hm) : unsigned x = x := by
  rw [unsigned, if_neg]
  rw [beq_iff, h, unpack_zero]
  cases s <;> simp [UnpackedFloat.compare]

theorem unsigned_unsigned (x : Float) : unsigned (unsigned x) = unsigned x := by
  have hzero : unsigned 0 = 0 := by decide
  by_cases h : (x == 0) = true
  · rw [show unsigned x = 0 from if_pos h, hzero]
  · rw [show unsigned x = x from if_neg h, show unsigned x = x from if_neg h]

/-- A number that is not negative is rounded to no negative zero. -/
theorem unsigned_ofRat {r : Rat} (h : 0 ≤ r) (hr : (ofRat r).isFinite = true) :
    unsigned (ofRat r) = ofRat r := by
  have hsign : signOf r = .positive := if_neg (not_lt.2 h)
  have hunpack := unpack_ofRat (isFinite_ofRat_iff.1 hr)
  rcases finite_cases hr with ⟨s, hx⟩ | ⟨s, m, e, hm, hx⟩
  · rw [unsigned_of_zero hx]
    refine eq_of_unpack_eq ?_
    rw [unpack_zero, hunpack, hsign]
    rw [hunpack, hsign] at hx
    unfold Scaled.unpacked at hx ⊢
    split at hx
    · cases hx
    · rw [dif_neg ‹_›]
  · exact unsigned_of_finite hx

/-- A finite double is its magnitude with its sign, but for the sign of zero. -/
theorem negateIf_abs {x : Float} (h : x.isFinite = true) :
    negateIf (x < 0) x.abs = unsigned x := by
  refine eq_of_unpack_eq ?_
  rcases finite_cases h with ⟨s, hx⟩ | ⟨s, m, e, hm, hx⟩
  · have hlt : ¬ x < 0 := by
      rw [lt_zero_iff, hx]
      cases s <;> simp [UnpackedFloat.lt, UnpackedFloat.compare]
    rw [unsigned_of_zero hx, unpack_zero, negateIf, if_neg (by simpa using hlt), unpack_abs, hx]
    rfl
  · rw [unsigned_of_finite hx]
    cases s with
    | positive =>
      have hlt : ¬ x < 0 := by
        rw [lt_zero_iff, hx]
        simp [UnpackedFloat.lt, UnpackedFloat.compare]
      rw [negateIf, if_neg (by simpa using hlt), unpack_abs, hx]
      rfl
    | negative =>
      have hlt : x < 0 := by
        rw [lt_zero_iff, hx]
        rfl
      rw [negateIf, if_pos (by simpa using hlt), unpack_neg, unpack_abs, hx]
      rfl

/-- Equal finite doubles are the same double, but for the sign of zero. -/
theorem unsigned_eq_of_beq {x y : Float} (hx : x.isFinite = true) (hy : y.isFinite = true)
    (h : (x == y) = true) : unsigned x = unsigned y := by
  rw [beq_iff] at h
  rcases finite_cases hx with ⟨s, hux⟩ | ⟨s, m, e, hm, hux⟩ <;>
    rcases finite_cases hy with ⟨s', huy⟩ | ⟨s', m', e', hm', huy⟩ <;> rw [hux, huy] at h
  · rw [unsigned_of_zero hux, unsigned_of_zero huy]
  · cases s' <;> simp [UnpackedFloat.compare] at h
  · cases s <;> simp [UnpackedFloat.compare] at h
  · rw [unsigned_of_finite hux, unsigned_of_finite huy]
    refine eq_of_unpack_eq ?_
    rw [hux, huy]
    cases s <;> cases s' <;> simp [UnpackedFloat.compare, Ordering.then_eq_eq] at h
    · obtain ⟨rfl, rfl⟩ := h
      rfl
    · obtain ⟨rfl, rfl⟩ := h
      rfl

/-- A finite double is equal to itself. -/
theorem beq_self {x : Float} (h : x.isFinite = true) : (x == x) = true := by
  rw [beq_iff]
  rcases finite_cases h with ⟨s, hx⟩ | ⟨s, m, e, hm, hx⟩ <;> rw [hx] <;> cases s <;>
    simp [UnpackedFloat.compare]

/-- A finite double is equal to itself without the sign of zero. -/
theorem beq_unsigned {x : Float} (h : x.isFinite = true) : (x == unsigned x) = true := by
  unfold unsigned
  split
  · assumption
  · exact beq_self h

/-- Finite doubles are equal exactly when they are the same double, but for the sign of zero. -/
theorem beq_iff_unsigned {x y : Float} (hx : x.isFinite = true) (hy : y.isFinite = true) :
    (x == y) = true ↔ unsigned x = unsigned y := by
  refine ⟨unsigned_eq_of_beq hx hy, fun h => ?_⟩
  have hzero : ∀ {s s' m e hm}, (0 : Float).toModel.unpack = .zero s →
      (0 : Float).toModel.unpack ≠ .finite s' m e hm := by
    intro s s' m e hm h
    rw [h]
    simp
  rcases finite_cases hx with ⟨s, hux⟩ | ⟨s, m, e, hm, hux⟩ <;>
    rcases finite_cases hy with ⟨s', huy⟩ | ⟨s', m', e', hm', huy⟩
  · rw [beq_iff, hux, huy]
    rfl
  · rw [unsigned_of_zero hux, unsigned_of_finite huy] at h
    exact absurd (h ▸ huy) (hzero unpack_zero)
  · rw [unsigned_of_finite hux, unsigned_of_zero huy] at h
    exact absurd (h ▸ hux) (hzero unpack_zero)
  · rw [unsigned_of_finite hux, unsigned_of_finite huy] at h
    rw [h]
    exact beq_self hy

/-- Only the negative zero is changed when the sign of zero is left out. -/
theorem unsigned_eq_self {x : Float} (h : x.isFinite = true) (hx : x ≠ -0) : unsigned x = x := by
  rcases finite_cases h with ⟨s, hux⟩ | ⟨s, m, e, hm, hux⟩
  · rw [unsigned_of_zero hux]
    cases s with
    | positive => exact eq_of_unpack_eq (by rw [hux, unpack_zero])
    | negative => exact absurd (eq_of_unpack_eq (by rw [hux, unpack_neg, unpack_zero]; rfl)) hx
  · exact unsigned_of_finite hux

end Reckoner.Number
