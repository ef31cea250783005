import Mathlib
import Reckoner.Evaluation.Factorial
import Reckoner.Proofs.Number.Sign

/-!
# Operations that stay finite

A double that is neither an infinity nor no number is finite.  Remainders of finite doubles are
finite (`isFinite_remainder`), and so is a falling product that was not given up
(`isFinite_fallingProduct`).
-/

namespace Reckoner

namespace Number

open Float.Model (UnpackedFloat)
open Float.Model.UnpackedFloat (Sign packComponents)

/-! ## The status of a double -/

theorem isFinite_iff {x : Float} : x.isFinite = true ↔ x.isNaN = false ∧ x.isInf = false := by
  show x.toModel.unpack.isFinite = true ↔
    x.toModel.unpack.isNaN = false ∧ x.toModel.unpack.isInf = false
  cases x.toModel.unpack <;> simp [UnpackedFloat.isFinite, UnpackedFloat.isNaN,
    UnpackedFloat.isInf]

theorem isNaN_unpack_packComponents {s : Sign} {e : BitVec 11} {m : BitVec 52} (h : e ≠ -1#11) :
    (UnpackedFloat.unpack .binary64 (packComponents .binary64 s e m)).isNaN = false := by
  simp only [UnpackedFloat.unpack, UnpackedFloat.unpackMantissa_packComponents,
    UnpackedFloat.unpackExponent_packComponents]
  rw [if_neg h]
  split_ifs <;> rfl

/-- What is packed from a number is a number. -/
theorem isNaN_unpack_pack {u : UnpackedFloat} (h : u.isNaN = false) :
    (Float.Model.pack u).unpack.isNaN = false := by
  cases u with
  | notANumber => exact absurd h (by decide)
  | infinity s => rw [unpack_pack (show IsDouble (.infinity s) from trivial), h]
  | zero s => rw [unpack_pack (show IsDouble (.zero s) from trivial), h]
  | finite s m e hm =>
    by_cases hlarge : greatestExponent < e
    · have hinf : Float.Model.pack (.finite s m e hm) = .pack (.infinity s) := by
        simp only [Float.Model.pack, pack_beyond hlarge]
      rw [hinf, unpack_pack (show IsDouble (.infinity s) from trivial)]
      rfl
    · simp only [greatestExponent, not_lt] at hlarge
      have hbiased : (e + 1023 + 52).toNat < 2047 := by omega
      have hfield : BitVec.ofNat 11 (e + 1023 + 52).toNat ≠ -1#11 := by
        rw [ne_allOnes_iff, BitVec.toNat_ofNat]
        omega
      obtain ⟨f, hf, hpack⟩ : ∃ f : BitVec 11, f ≠ -1#11 ∧
          UnpackedFloat.pack .binary64 (.finite s m e hm) =
            packComponents .binary64 s f (BitVec.ofNat 52 m) := by
        simp only [UnpackedFloat.pack]
        rw [if_neg (by simp [Float.Model.Format.exponentBias]; omega)]
        split
        · exact ⟨_, hfield, rfl⟩
        · exact ⟨0#11, by decide, rfl⟩
      show (UnpackedFloat.unpack .binary64 (UnpackedFloat.pack .binary64 _)).isNaN = false
      rw [hpack]
      exact isNaN_unpack_packComponents hf

theorem isNaN_roundWithAccuracy (s : Sign) (m : Nat) (e : Int)
    (a : UnpackedFloat.Accuracy) :
    (UnpackedFloat.roundWithAccuracy .binary64 s m e a).isNaN = false := by
  unfold UnpackedFloat.roundWithAccuracy
  simp only
  split <;> rfl

/-- The product of two finite doubles is a number. -/
theorem isNaN_mul {x y : Float} (hx : x.isFinite = true) (hy : y.isFinite = true) :
    (x * y).isNaN = false := by
  refine isNaN_unpack_pack ?_
  show (UnpackedFloat.mul .binary64 x.toModel.unpack y.toModel.unpack).isNaN = false
  rcases finite_cases hx with ⟨s, hux⟩ | ⟨s, m, e, hm, hux⟩ <;>
    rcases finite_cases hy with ⟨s', huy⟩ | ⟨s', m', e', hm', huy⟩ <;>
      rw [hux, huy, UnpackedFloat.mul]
  · rfl
  · rfl
  · rfl
  · exact isNaN_roundWithAccuracy _ _ _ _

theorem isFinite_mul {x y : Float} (hx : x.isFinite = true) (hy : y.isFinite = true)
    (h : (x * y).isInf = false) : (x * y).isFinite = true :=
  isFinite_iff.2 ⟨isNaN_mul hx hy, h⟩

/-! ## Remainders -/

/-- The remainder of two finite doubles is finite. -/
theorem isFinite_remainder {a : Float} (b : Float) (ha : a.isFinite = true) :
    (remainder a b).isFinite = true := by
  have hma := magnitude_nonneg a
  have hmb := magnitude_nonneg b
  have hfloor : (0 : Rat) ≤ (magnitude a / magnitude b).floor := by
    have : (0 : Int) ≤ ⌊magnitude a / magnitude b⌋ := Int.floor_nonneg.2 (div_nonneg hma hmb)
    exact_mod_cast this
  have htaken : (magnitude a / magnitude b).floor * magnitude b ≤ magnitude a := by
    rcases hmb.eq_or_lt with hzero | hpos
    · rw [← hzero, mul_zero]
      exact hma
    · exact (le_div_iff₀ hpos).1 (floor_le _)
  have hleft : 0 ≤ magnitude a - (magnitude a / magnitude b).floor * magnitude b := by linarith
  rw [remainder, isFinite_negateIf, isFinite_ofRat_iff, abs_of_nonneg hleft]
  have htaken' := mul_nonneg hfloor hmb
  have hlt := magnitude_lt ha
  linarith

/-! ## Whole numbers of finite doubles -/

/-- The greatest magnitude of a double is half a unit below the bound of the range. -/
theorem magnitude_add_le {x : Float} (h : x.isFinite = true) :
    magnitude x + 2 ^ (970 : Int) ≤ roundingBound := by
  have hgreatest : ((2 : Rat) ^ 53 - 1) * 2 ^ (971 : Int) + 2 ^ (970 : Int) = roundingBound := by
    rw [roundingBound, show (971 : Int) = 1 + 970 by rfl, zpow_add₀ (by norm_num)]
    ring
  have hdouble := isDouble_unpack x.toModel
  suffices hle : magnitude x ≤ ((2 : Rat) ^ 53 - 1) * 2 ^ (971 : Int) by linarith
  rcases finite_cases h with ⟨s, hx⟩ | ⟨s, m, e, hm, hx⟩
  · rw [magnitude, scaled, hx]
    simp only [Scaled.toRat, Nat.cast_zero, zero_mul]
    exact mul_nonneg (by norm_num) (two_zpow_pos _).le
  · rw [hx] at hdouble
    obtain ⟨hlt, -, -, hle⟩ := hdouble
    have hm' : (m : Rat) ≤ 2 ^ 53 - 1 := by
      simp only [leastFullMantissa] at hlt
      have : (m : Rat) + 1 ≤ 2 ^ 53 := by exact_mod_cast hlt
      linarith
    rw [magnitude, scaled, hx]
    exact mul_le_mul hm' (zpow_le_zpow_right₀ (by norm_num) hle) (two_zpow_pos _).le (by norm_num)

theorem abs_toRat (x : Float) : |toRat x| = magnitude x := by
  rw [toRat]
  split
  · rw [abs_neg, abs_of_nonneg (magnitude_nonneg x)]
  · exact abs_of_nonneg (magnitude_nonneg x)

/-- The whole number nearest to a finite double is within the range of doubles. -/
theorem abs_round_lt {x : Float} (h : x.isFinite = true) : |(round x : Rat)| < roundingBound := by
  have hnear := abs_roundHalfEven_sub_le (toRat x)
  have hone : magnitude x + 1 ≤ roundingBound :=
    (add_le_add_right (one_le_zpow₀ (by norm_num) (by norm_num)) _).trans
      (magnitude_add_le h)
  have hadd := abs_add_le ((roundHalfEven (toRat x) : Rat) - toRat x) (toRat x)
  rw [sub_add_cancel, abs_toRat] at hadd
  rw [round]
  linarith

theorem toNat_round_lt {x : Float} (h : x.isFinite = true) :
    (((round x).toNat : Nat) : Rat) < roundingBound := by
  rcases le_total 0 (round x) with hnonneg | hneg
  · have hcast : (((round x).toNat : Nat) : Rat) = round x := by
      exact_mod_cast congrArg (Int.cast (R := Rat)) (Int.toNat_of_nonneg hnonneg)
    rw [hcast]
    exact (le_abs_self _).trans_lt (abs_round_lt h)
  · rw [Int.toNat_of_nonpos hneg]
    simpa using roundingBound_pos

end Number

/-! ## Factorials -/

/-- A falling product that is not given up is finite. -/
theorem isFinite_fallingProduct {n : Nat} {product result : Float}
    (hn : (n : Rat) < Number.roundingBound) (hproduct : product.isFinite = true)
    (h : fallingProduct n product = some result) : result.isFinite = true := by
  induction n, product using fallingProduct.induct with
  | case1 product => simpa [fallingProduct, ← Option.some.inj h] using hproduct
  | case2 product => simpa [fallingProduct, ← Option.some.inj h] using hproduct
  | case3 n product next hinf =>
    rw [fallingProduct, if_pos hinf] at h
    exact absurd h (by simp)
  | case4 n product next hinf ih =>
    rw [fallingProduct, if_neg hinf] at h
    have hfactor : (Number.ofRat (n + 2 : Nat)).isFinite = true := by
      rw [Number.isFinite_ofRat_iff, abs_of_nonneg (Nat.cast_nonneg _)]
      exact hn
    refine ih ?_ (Number.isFinite_mul hproduct hfactor (Bool.eq_false_iff.2 hinf)) h
    push_cast at hn ⊢
    linarith

end Reckoner
