import Mathlib
import Reckoner.Proofs.Number.Sign

/-!
# The two zeros

A double on the left of an operation may be a positive or a negative zero: for equal doubles, the
results are equal too.
-/

namespace Reckoner.Number

open Float.Model (UnpackedFloat)

/-- A double is one of the two zeros. -/
def IsZero (x : Float) : Prop := ∃ s, x.toModel.unpack = .zero s

variable {x x' y : Float}

theorem IsZero.beq (h : IsZero x) (h' : IsZero x') : (x == x') = true := by
  obtain ⟨s, hx⟩ := h
  obtain ⟨s', hx'⟩ := h'
  rw [beq_iff, hx, hx']
  rfl

theorem IsZero.eq_zero_or (h : IsZero x) : x = 0 ∨ x = -0 := by
  obtain ⟨s, hx⟩ := h
  cases s with
  | positive => exact .inl (eq_of_unpack_eq (by rw [hx, unpack_zero]))
  | negative => exact .inr (eq_of_unpack_eq (by rw [hx, unpack_neg, unpack_zero]; rfl))

theorem IsZero.unsigned (h : IsZero x) : unsigned x = 0 := h.elim fun _ hx => unsigned_of_zero hx

theorem IsZero.negateIf (h : IsZero x) (negative : Bool) : IsZero (negateIf negative x) := by
  obtain ⟨s, hx⟩ := h
  cases negative with
  | false => exact ⟨s, hx⟩
  | true => exact ⟨-s, by rw [Number.negateIf, if_pos rfl, unpack_neg, hx]; rfl⟩

theorem IsZero.magnitude (h : IsZero x) : magnitude x = 0 := by
  obtain ⟨s, hx⟩ := h
  rw [Number.magnitude, scaled, hx]
  simp [Scaled.toRat]

/-- Equal finite doubles are the same double or both zero. -/
theorem eq_or_isZero_of_beq (hx : x.isFinite = true) (hx' : x'.isFinite = true)
    (h : (x == x') = true) : x = x' ∨ IsZero x ∧ IsZero x' := by
  have hunsigned := unsigned_eq_of_beq hx hx' h
  have hzero : ∀ {y : Float} {s m e hm}, y.toModel.unpack = .finite s m e hm → y ≠ 0 := by
    rintro y s m e hm hy rfl
    rw [unpack_zero] at hy
    cases hy
  rcases finite_cases hx with hzx | ⟨s, m, e, hm, hux⟩ <;>
    rcases finite_cases hx' with hzx' | ⟨s', m', e', hm', hux'⟩
  · exact .inr ⟨hzx, hzx'⟩
  · obtain ⟨s, hzx⟩ := hzx
    rw [unsigned_of_zero hzx, unsigned_of_finite hux'] at hunsigned
    exact absurd hunsigned.symm (hzero hux')
  · obtain ⟨s, hzx'⟩ := hzx'
    rw [unsigned_of_zero hzx', unsigned_of_finite hux] at hunsigned
    exact absurd hunsigned (hzero hux)
  · rw [unsigned_of_finite hux, unsigned_of_finite hux'] at hunsigned
    exact .inl hunsigned

/-! ## Operations -/

theorem isZero_pack (s : UnpackedFloat.Sign) : IsZero (.ofModel (.pack (.zero s))) :=
  ⟨s, unpack_pack trivial⟩

section

variable (h : IsZero x) (hy : y.isFinite = true)
include h hy

/-- A zero plus a finite double is the double. -/
theorem IsZero.unsigned_add : Number.unsigned (x + y) = Number.unsigned y := by
  obtain ⟨s, hx⟩ := h
  have hsum : x + y =
      .ofModel (.pack (UnpackedFloat.add .binary64 x.toModel.unpack y.toModel.unpack)) := rfl
  rcases finite_cases hy with ⟨s', huy⟩ | ⟨s', m, e, hm, huy⟩
  · have hzero : IsZero (x + y) := by
      rw [hsum, hx, huy]
      cases s <;> cases s' <;> exact isZero_pack _
    rw [hzero.unsigned, unsigned_of_zero huy]
  · refine congrArg Number.unsigned (eq_of_unpack_eq ?_)
    have hdouble := isDouble_unpack y.toModel
    rw [hsum, hx]
    rw [huy] at hdouble ⊢
    exact unpack_pack hdouble

/-- A zero minus a finite double is the double with the other sign. -/
theorem IsZero.unsigned_sub : Number.unsigned (x - y) = Number.unsigned (-y) := by
  obtain ⟨s, hx⟩ := h
  have hdifference : x - y =
      .ofModel (.pack (UnpackedFloat.sub .binary64 x.toModel.unpack y.toModel.unpack)) := rfl
  rcases finite_cases hy with ⟨s', huy⟩ | ⟨s', m, e, hm, huy⟩
  · have hzero : IsZero (x - y) := by
      rw [hdifference, hx, huy]
      cases s <;> cases s' <;> exact isZero_pack _
    have hneg : (-y).toModel.unpack = .zero (-s') := by
      rw [unpack_neg, huy]
      rfl
    rw [hzero.unsigned, unsigned_of_zero hneg]
  · refine congrArg Number.unsigned (eq_of_unpack_eq ?_)
    have hdouble := (isDouble_unpack y.toModel).neg
    rw [hdifference, unpack_neg, hx]
    rw [huy] at hdouble ⊢
    exact unpack_pack hdouble

theorem IsZero.mul : IsZero (x * y) := by
  obtain ⟨s, hx⟩ := h
  have hproduct : x * y =
      .ofModel (.pack (UnpackedFloat.mul .binary64 x.toModel.unpack y.toModel.unpack)) := rfl
  rcases finite_cases hy with ⟨s', huy⟩ | ⟨s', m, e, hm, huy⟩ <;> rw [hproduct, hx, huy] <;>
    exact isZero_pack _

theorem IsZero.div (hne : (y == 0) = false) : IsZero (x / y) := by
  obtain ⟨s, hx⟩ := h
  have hquotient : x / y =
      .ofModel (.pack (UnpackedFloat.div .binary64 x.toModel.unpack y.toModel.unpack)) := rfl
  rcases finite_cases hy with hzero | ⟨s', m, e, hm, huy⟩
  · have hequal : (y == 0) = true := IsZero.beq hzero ⟨.positive, unpack_zero⟩
    rw [hequal] at hne
    exact absurd hne (by decide)
  · rw [hquotient, hx, huy]
    exact isZero_pack _

end

theorem IsZero.remainder (h : IsZero x) (y : Float) : IsZero (remainder x y) := by
  have hfloor : (0 : Rat).floor = 0 := rfl
  rw [Number.remainder, h.magnitude, zero_div, hfloor, Int.cast_zero, zero_mul, sub_zero,
    ofRat_zero]
  exact (isZero_pack _).negateIf _

/-! ## Equal doubles on the left -/

section

variable (hx : x.isFinite = true) (hx' : x'.isFinite = true) (hy : y.isFinite = true)
  (h : (x == x') = true)
include hx hx' h

/-- What ignores the sign of a zero does not tell equal doubles apart. -/
theorem eq_of_beq {α : Type} (g : Float → α)
    (hg : ∀ {z z'}, IsZero z → IsZero z' → g z = g z') : g x = g x' := by
  rcases eq_or_isZero_of_beq hx hx' h with rfl | ⟨hzero, hzero'⟩
  · rfl
  · exact hg hzero hzero'

include hy

theorem unsigned_add_congr : unsigned (x + y) = unsigned (x' + y) :=
  eq_of_beq hx hx' h (fun z => unsigned (z + y)) fun hz hz' =>
    (hz.unsigned_add hy).trans (hz'.unsigned_add hy).symm

theorem unsigned_sub_congr : unsigned (x - y) = unsigned (x' - y) :=
  eq_of_beq hx hx' h (fun z => unsigned (z - y)) fun hz hz' =>
    (hz.unsigned_sub hy).trans (hz'.unsigned_sub hy).symm

theorem unsigned_mul_congr : unsigned (x * y) = unsigned (x' * y) :=
  eq_of_beq hx hx' h (fun z => unsigned (z * y)) fun hz hz' =>
    (hz.mul hy).unsigned.trans (hz'.mul hy).unsigned.symm

theorem unsigned_div_congr (hne : (y == 0) = false) : unsigned (x / y) = unsigned (x' / y) :=
  eq_of_beq hx hx' h (fun z => unsigned (z / y)) fun hz hz' =>
    (hz.div hy hne).unsigned.trans (hz'.div hy hne).unsigned.symm

end

theorem unsigned_remainder_congr (hx : x.isFinite = true) (hx' : x'.isFinite = true)
    (h : (x == x') = true) (y : Float) : unsigned (remainder x y) = unsigned (remainder x' y) :=
  eq_of_beq hx hx' h (fun z => unsigned (remainder z y)) fun hz hz' =>
    (hz.remainder y).unsigned.trans (hz'.remainder y).unsigned.symm

theorem round_congr (hx : x.isFinite = true) (hx' : x'.isFinite = true) (h : (x == x') = true) :
    round x = round x' := by
  have hzero : ∀ {z : Float}, IsZero z → toRat z = 0 := by
    intro z hz
    rw [toRat, hz.magnitude, neg_zero, ite_self]
  exact eq_of_beq hx hx' h round fun hz hz' => by rw [round, round, hzero hz, hzero hz']

end Reckoner.Number
