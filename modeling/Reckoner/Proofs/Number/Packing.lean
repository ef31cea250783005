import Mathlib
import Reckoner.Number.Binary

/-!
# Doubles and their bits

A double is unpacked into a sign, a mantissa and an exponent, and packed again into bits.  The two
are inverse to each other: unpacking gives a magnitude that a double has (`isDouble_unpack`), such
a magnitude comes back from its bits (`unpack_pack`), and every double is packed from what it is
unpacked to (`pack_unpack`).
-/

namespace Reckoner.Number

open Float.Model (UnpackedFloat)
open Float.Model.UnpackedFloat (Sign packComponents unpackSign unpackExponent unpackMantissa)

/-! ## Magnitudes of doubles -/

/-- The greatest exponent of a finite double. -/
def greatestExponent : Int := 971

/-- The magnitudes of finite doubles in their one form: full precision, or the least exponent. -/
structure Scaled.IsDouble (s : Scaled) : Prop where
  /-- The mantissa has at most as many bits as a double keeps. -/
  lt : s.mantissa < 2 * leastFullMantissa
  /-- All those bits are used, unless the exponent cannot be less. -/
  full : leastFullMantissa ≤ s.mantissa ∨ s.exponent = leastExponent
  /-- The exponent is not too small. -/
  least_le : leastExponent ≤ s.exponent
  /-- The exponent is not too great. -/
  le_greatest : s.exponent ≤ greatestExponent

/-- The unpacked numbers that stand for a double as it is. -/
def IsDouble : UnpackedFloat → Prop
  | .finite _ mantissa exponent _ => Scaled.IsDouble ⟨mantissa, exponent⟩
  | _ => True

/-! ## Bits and their three parts -/

theorem toBitVec_ofBitVec (v : BitVec 1) : (Sign.ofBitVec v).toBitVec = v := by
  revert v
  decide

theorem ofBitVec_toBitVec (s : Sign) : Sign.ofBitVec s.toBitVec = s := by
  cases s <;> rfl

theorem unpackSign_packComponents {s : Sign} {e : BitVec 11} {m : BitVec 52} :
    @unpackSign .binary64 (packComponents .binary64 s e m) = s.toBitVec := by
  simp only [unpackSign, packComponents, BitVec.extractLsb]
  ext i hi
  grind

/-- The three parts of a word, put together again. -/
theorem packComponents_parts {b : BitVec 64} {e : BitVec 11} {m : BitVec 52}
    (he : @unpackExponent .binary64 b = e) (hm : @unpackMantissa .binary64 b = m) :
    packComponents .binary64 (Sign.ofBitVec (@unpackSign .binary64 b)) e m = b := by
  subst he hm
  simp only [packComponents, toBitVec_ofBitVec, unpackSign, unpackExponent, unpackMantissa,
    BitVec.extractLsb]
  ext i hi
  grind

/-- The implicit bit in front of the bits of a mantissa. -/
theorem toNat_implicit_append (m : BitVec 52) :
    (1#1 ++ m).toNat = leastFullMantissa + m.toNat := by
  rw [BitVec.toNat_append, ← Nat.shiftLeft_add_eq_or_of_lt m.isLt]
  rfl

theorem toNat_implicit_pos (m : BitVec 52) : 0 < (1#1 ++ m).toNat := by
  rw [toNat_implicit_append, leastFullMantissa]
  omega

theorem ne_allOnes_iff {e : BitVec 11} : e ≠ -1#11 ↔ e.toNat < 2047 := by
  rw [ne_eq, ← BitVec.toNat_inj]
  have := e.isLt
  simp
  omega

theorem log2_of_full {m : Nat} (h : leastFullMantissa ≤ m) (h' : m < 2 * leastFullMantissa) :
    m.log2 = 52 := by
  rw [Nat.log2_eq_iff (by simp [leastFullMantissa] at h; omega)]
  exact ⟨h, h'⟩

theorem log2_of_lt_full {m : Nat} (h : m < leastFullMantissa) (hm : 0 < m) : m.log2 < 52 :=
  (Nat.log2_lt (by omega)).2 h

/-! ## Unpacking and packing -/

/-- What a word is unpacked to is a double as it is. -/
theorem isDouble_unpack (x : Float.Model) : IsDouble x.unpack := by
  obtain ⟨⟨b⟩, hvalid⟩ := x
  have hm : (@unpackMantissa .binary64 b).toNat < 4503599627370496 := BitVec.isLt _
  have he : (@unpackExponent .binary64 b).toNat < 2048 := BitVec.isLt _
  simp only [Float.Model.unpack, UnpackedFloat.unpack]
  split
  · split <;> trivial
  · rename_i hfinite
    have hfinite := ne_allOnes_iff.1 hfinite
    split
    · rename_i hzero
      split
      · trivial
      · have hexp : (@unpackExponent .binary64 b).toNat = 0 := by rw [hzero]; rfl
        constructor <;>
          simp [leastFullMantissa, leastExponent, greatestExponent, hexp,
            Float.Model.Format.exponentBias]
        omega
    · rename_i hnormal
      have hexp : (@unpackExponent .binary64 b).toNat ≠ 0 := by
        intro h
        exact hnormal (BitVec.toNat_inj.1 (by simpa using h))
      constructor <;> simp only [toNat_implicit_append] <;>
        simp only [leastFullMantissa, leastExponent, greatestExponent] <;>
        simp [Float.Model.Format.exponentBias] <;> omega

/-- A double of full precision is packed into its biased exponent and the mantissa without its
first bit. -/
theorem pack_normal {s : Sign} {m : Nat} {e : Int} {hm : 0 < m} (biased : Nat)
    (hfull : leastFullMantissa ≤ m) (hlt : m < 2 * leastFullMantissa) (hbiased : e + 1075 = biased)
    (hfinite : biased < 2047) :
    UnpackedFloat.pack .binary64 (.finite s m e hm) =
      packComponents .binary64 s (BitVec.ofNat 11 biased) (BitVec.ofNat 52 m) := by
  have hfield : (e + (Float.Model.Format.binary64.exponentBias : Int) +
      (Float.Model.Format.binary64.mantissaBitsWithoutImplicit : Int)).toNat = biased := by
    simp [Float.Model.Format.exponentBias]
    omega
  simp only [UnpackedFloat.pack, hfield]
  rw [if_neg (by simp; omega), if_pos (by rw [log2_of_full hfull hlt]; rfl)]

/-- A double of less precision is packed into its mantissa alone. -/
theorem pack_subnormal {s : Sign} {m : Nat} {e : Int} {hm : 0 < m} (hlt : m < leastFullMantissa)
    (he : e = -1074) :
    UnpackedFloat.pack .binary64 (.finite s m e hm) =
      packComponents .binary64 s 0#11 (BitVec.ofNat 52 m) := by
  subst he
  have hlog : m.log2 < 52 := log2_of_lt_full hlt hm
  simp only [UnpackedFloat.pack]
  rw [if_neg (by decide), if_neg (by simp [Float.Model.Format.mantissaBits]; omega)]

/-- Beyond the greatest exponent, only an infinity is packed. -/
theorem pack_beyond {s : Sign} {m : Nat} {e : Int} {hm : 0 < m} (h : greatestExponent < e) :
    UnpackedFloat.pack .binary64 (.finite s m e hm) =
      UnpackedFloat.pack .binary64 (.infinity s) := by
  simp only [greatestExponent] at h
  simp only [UnpackedFloat.pack]
  rw [if_pos]
  simp [Float.Model.Format.exponentBias]
  omega

theorem unpack_normal {s : Sign} {e : BitVec 11} {m : BitVec 52} (h0 : e.toNat ≠ 0)
    (h1 : e.toNat < 2047) :
    UnpackedFloat.unpack .binary64 (packComponents .binary64 s e m) =
      .finite s (1#1 ++ m).toNat (e.toNat - 1075) (toNat_implicit_pos m) := by
  have hfinite : e ≠ -1#11 := ne_allOnes_iff.2 h1
  have hnormal : e ≠ 0#11 := by
    intro h
    exact h0 (by simp [h])
  simp only [UnpackedFloat.unpack, UnpackedFloat.unpackMantissa_packComponents,
    UnpackedFloat.unpackExponent_packComponents, unpackSign_packComponents, ofBitVec_toBitVec]
  rw [if_neg hfinite, if_neg hnormal]
  rfl

theorem unpack_subnormal {s : Sign} {m : BitVec 52} (h : 0 < m.toNat) :
    UnpackedFloat.unpack .binary64 (packComponents .binary64 s 0#11 m) =
      .finite s m.toNat (-1074) h := by
  have hm : m ≠ 0#52 := by
    intro hm
    simp [hm] at h
  simp only [UnpackedFloat.unpack, UnpackedFloat.unpackMantissa_packComponents,
    UnpackedFloat.unpackExponent_packComponents, unpackSign_packComponents, ofBitVec_toBitVec]
  rw [if_neg (by decide), if_pos trivial, dif_neg hm]
  rfl

/-- A double comes back from its bits. -/
theorem unpack_pack {u : UnpackedFloat} (h : IsDouble u) : (Float.Model.pack u).unpack = u := by
  cases u with
  | notANumber => rfl
  | infinity s => cases s <;> rfl
  | zero s => cases s <;> rfl
  | finite s m e hm =>
    obtain ⟨hlt, hfull, hleast, hgreatest⟩ := h
    simp only [leastExponent, greatestExponent] at hleast hgreatest hfull hlt
    simp only [Float.Model.pack, Float.Model.unpack]
    by_cases hnormal : leastFullMantissa ≤ m
    · obtain ⟨biased, hbiased⟩ : ∃ n : Nat, e + 1075 = n :=
        ⟨_, (Int.toNat_of_nonneg (by omega)).symm⟩
      have hexp : (BitVec.ofNat 11 biased).toNat = biased := by
        rw [BitVec.toNat_ofNat]
        omega
      have hmant : (1#1 ++ BitVec.ofNat 52 m).toNat = m := by
        rw [toNat_implicit_append, BitVec.toNat_ofNat]
        simp only [leastFullMantissa] at hnormal hlt ⊢
        omega
      rw [pack_normal biased hnormal hlt hbiased (by omega), unpack_normal (by omega) (by omega)]
      simp only [hmant, hexp]
      congr 1
      omega
    · have hmant : (BitVec.ofNat 52 m).toNat = m := by
        rw [BitVec.toNat_ofNat]
        simp only [leastFullMantissa] at hnormal
        omega
      have he : e = -1074 := hfull.resolve_left hnormal
      rw [pack_subnormal (by omega) he, unpack_subnormal (by omega)]
      simp only [hmant, he]

/-- Every double is packed from what it is unpacked to. -/
theorem pack_unpack (x : Float.Model) : Float.Model.pack x.unpack = x := by
  obtain ⟨⟨b⟩, hvalid⟩ := x
  have hm : (@unpackMantissa .binary64 b).toNat < 4503599627370496 := BitVec.isLt _
  suffices h : UnpackedFloat.pack .binary64 (UnpackedFloat.unpack .binary64 b) = b by
    simp only [Float.Model.pack, Float.Model.unpack, h]
  rw [UnpackedFloat.unpack]
  split
  · rename_i hinf
    split
    · rename_i hzero
      exact packComponents_parts hinf hzero
    · rename_i hnan
      exact (hvalid.eq_packedNaN hinf hnan).symm
  · rename_i hfinite
    have hfinite := ne_allOnes_iff.1 hfinite
    split
    · rename_i hexp
      split
      · rename_i hzero
        exact packComponents_parts hexp hzero
      · rw [pack_subnormal hm (by rw [hexp]; rfl)]
        exact packComponents_parts hexp (by simp)
    · rename_i hnormal
      have hmant := toNat_implicit_append (@unpackMantissa .binary64 b)
      have hexp : (@unpackExponent .binary64 b).toNat ≠ 0 := by
        intro h
        exact hnormal (BitVec.toNat_inj.1 (by simpa using h))
      rw [pack_normal (@unpackExponent .binary64 b).toNat (by omega)
        (by rw [hmant, leastFullMantissa]; omega)
        (by simp [Float.Model.Format.exponentBias]) (by omega)]
      refine packComponents_parts (by simp) ?_
      rw [← BitVec.toNat_inj, BitVec.toNat_ofNat, hmant]
      exact ((Nat.add_mod_left _ _).trans (Nat.mod_eq_of_lt hm)).symm

end Reckoner.Number
