import Mathlib
import Reckoner.Proofs.Number.Negation

/-!
# Products of doubles

The product of two doubles is their exact product, rounded to the nearest double
(`mul_eq_ofRat`).  Nothing of it is rounded away if one of them is a one (`one_mul_double`).
-/

namespace Reckoner.Number

open Float.Model (UnpackedFloat Format totalExponent)
open Float.Model.UnpackedFloat (ExtendedMantissa)

/-! ## Rounding a shifted mantissa -/

/-- A mantissa with a lost half bit, and with something or nothing beyond it, is rounded to the
nearest whole number. -/
theorem roundHalfEven_extended (whole : Nat) (half : Bool) {past : Rat} (hnonneg : 0 ≤ past)
    (hlt : past < 1 / 2) :
    roundHalfEven (whole + (if half then 1 / 2 else 0) + past) =
      ((ExtendedMantissa.mk whole half (past != 0)).roundedMantissa : Nat) := by
  by_cases hzero : past = 0
  · have hnone : (past != 0) = false := by simpa using hzero
    rw [hnone, hzero, add_zero]
    cases half with
    | false =>
      rw [if_neg (by decide), add_zero]
      exact roundHalfEven_intCast whole
    | true =>
      -- the half is a tie, and one is added where that gives an even number
      show _ = ((whole + whole % 2 : Nat) : Int)
      rw [if_pos rfl]
      have hnear : ∀ parity : Nat, whole % 2 = parity → parity = 0 ∨ parity = 1 →
          roundHalfEven (whole + 1 / 2) = ((whole + parity : Nat) : Int) := by
        intro parity hparity hcases
        apply roundHalfEven_eq
        · rw [abs_le]
          rcases hcases with rfl | rfl <;> push_cast <;> constructor <;> linarith
        · intro _
          omega
      exact hnear _ rfl (Nat.mod_two_eq_zero_or_one whole)
  · have hsome : (past != 0) = true := by simpa using hzero
    have hpositive : 0 < past := hnonneg.lt_of_ne fun h => hzero h.symm
    rw [hsome]
    cases half with
    | false =>
      have hnear : |((whole : Int) : Rat) - (whole + 0 + past)| < 1 / 2 := by
        rw [abs_lt]
        push_cast
        constructor <;> linarith
      exact roundHalfEven_eq hnear.le fun htie => absurd htie hnear.ne
    | true =>
      have hnear : |((whole + 1 : Nat) : Int) - ((whole : Rat) + 1 / 2 + past)| < 1 / 2 := by
        rw [abs_lt]
        push_cast
        constructor <;> linarith
      exact roundHalfEven_eq hnear.le fun htie => absurd htie hnear.ne

/-- A mantissa that is shifted keeps the last bit that it lost, and whether any bit was lost
before. -/
theorem repeat_shiftRightOne (m k : Nat) :
    (k + 1).repeat ExtendedMantissa.shiftRightOne ⟨m, false, false⟩ =
      ⟨m / 2 ^ (k + 1), m / 2 ^ k % 2 != 0, m % 2 ^ k != 0⟩ := by
  induction k with
  | zero => simp [Nat.repeat, ExtendedMantissa.shiftRightOne, Nat.mod_one]
  | succ k ih =>
    have hlost : (m / 2 ^ k % 2 != 0 || m % 2 ^ k != 0) = (m % 2 ^ (k + 1) != 0) := by
      have hpos : 0 < 2 ^ k := Nat.two_pow_pos k
      rw [Nat.mod_pow_succ, Bool.eq_iff_iff]
      simp only [Bool.or_eq_true, bne_iff_ne, ne_eq, Nat.add_eq_zero_iff, Nat.mul_eq_zero]
      omega
    rw [Nat.repeat, ih, ExtendedMantissa.shiftRightOne, hlost, Nat.div_div_eq_div_mul,
      ← pow_succ]

/-- A shifted mantissa is rounded to the nearest whole number, a half to the even one. -/
theorem roundedMantissa_repeat (m k : Nat) :
    roundHalfEven ((m : Rat) / 2 ^ k) =
      ((k.repeat ExtendedMantissa.shiftRightOne ⟨m, false, false⟩).roundedMantissa : Nat) := by
  cases k with
  | zero =>
    rw [pow_zero, div_one]
    exact roundHalfEven_intCast m
  | succ k =>
    have hpow : (0 : Rat) < 2 ^ (k + 1) := by positivity
    have hnonneg : (0 : Rat) ≤ (m % 2 ^ k : Nat) / 2 ^ (k + 1) :=
      div_nonneg (Nat.cast_nonneg _) hpow.le
    have hlt : ((m % 2 ^ k : Nat) : Rat) / 2 ^ (k + 1) < 1 / 2 := by
      have hrest : ((m % 2 ^ k : Nat) : Rat) < 2 ^ k := by
        exact_mod_cast Nat.mod_lt m (Nat.two_pow_pos k)
      rw [div_lt_iff₀ hpow, pow_succ]
      linarith
    have hsticky : (((m % 2 ^ k : Nat) : Rat) / 2 ^ (k + 1) != 0) = (m % 2 ^ k != 0) := by
      rw [Bool.eq_iff_iff, bne_iff_ne, bne_iff_ne, ne_eq, ne_eq, div_eq_zero_iff,
        Nat.cast_eq_zero, or_iff_left hpow.ne']
    have hhalf : (if (m / 2 ^ k % 2 != 0) = true then 1 / 2 else 0 : Rat) =
        (m / 2 ^ k % 2 : Nat) / 2 := by
      rcases Nat.mod_two_eq_zero_or_one (m / 2 ^ k) with h | h <;> rw [h] <;> norm_num
    have hparts : m = 2 ^ (k + 1) * (m / 2 ^ (k + 1)) +
        (2 ^ k * (m / 2 ^ k % 2) + m % 2 ^ k) := by
      conv_lhs => rw [← Nat.div_add_mod m (2 ^ (k + 1)), Nat.mod_pow_succ, add_comm (m % 2 ^ k)]
    have hvalue : (m : Rat) / 2 ^ (k + 1) = (m / 2 ^ (k + 1) : Nat) +
        (if (m / 2 ^ k % 2 != 0) = true then 1 / 2 else 0) + (m % 2 ^ k : Nat) / 2 ^ (k + 1) := by
      rw [hhalf, div_eq_iff hpow.ne']
      have hcast := congrArg (Nat.cast (R := Rat)) hparts
      push_cast at hcast
      rw [hcast, add_mul, add_mul, div_mul_cancel₀ _ hpow.ne', pow_succ]
      ring
    rw [repeat_shiftRightOne, hvalue, roundHalfEven_extended _ _ hnonneg hlt, hsticky]

/-! ## Rounding a magnitude -/

/-- The exponent of a fraction between two powers of two. -/
theorem binaryExponent_eq {r : Rat} {e : Int} (hle : (2 : Rat) ^ e ≤ r) (hlt : r < 2 ^ (e + 1)) :
    binaryExponent r = e := by
  obtain ⟨hle', hlt'⟩ := binaryExponent_spec ((two_zpow_pos e).trans_le hle)
  have hbelow := (zpow_lt_zpow_iff_right₀ (by norm_num : (1 : Rat) < 2)).1 (hle'.trans_lt hlt)
  have habove := (zpow_lt_zpow_iff_right₀ (by norm_num : (1 : Rat) < 2)).1 (hle.trans_lt hlt')
  omega

/-- A magnitude is rounded to the place that its exponent in all names. -/
theorem lastPlace_toRat {m : Nat} (hm : 0 < m) (e : Int) :
    lastPlace (Scaled.toRat ⟨m, e⟩) = Format.targetExponent .binary64 (totalExponent m e) := by
  obtain ⟨hle, hlt⟩ := log2_bounds hm.ne'
  have hexponent : binaryExponent (Scaled.toRat ⟨m, e⟩) = m.log2 + e := by
    apply binaryExponent_eq
    · rw [zpow_add₀ (by norm_num)]
      exact mul_le_mul_of_nonneg_right hle (two_zpow_pos e).le
    · rw [add_right_comm, zpow_add₀ (by norm_num)]
      exact mul_lt_mul_of_pos_right hlt (two_zpow_pos e)
  show max _ _ = max ((m.log2 : Int) + 1 + e - 53) (-1074)
  rw [hexponent, leastExponent]
  congr 1
  ring

/-- A mantissa that no place is lost of stays as it is. -/
theorem shiftToTargetExponent_of_lt {m : Nat} {e : Int} (hm : m < 2 * leastFullMantissa)
    (he : leastExponent ≤ e) :
    UnpackedFloat.shiftToTargetExponent .binary64 m e .exact = (⟨m, false, false⟩, e) := by
  have hlog : m.log2 ≤ 52 := by
    rcases Nat.eq_zero_or_pos m with rfl | hpos
    · decide
    · exact Nat.le_of_lt_succ ((Nat.log2_lt hpos.ne').2 hm)
  have htarget : Format.targetExponent .binary64 (totalExponent m e) ≤ e := by
    show max ((m.log2 : Int) + 1 + e - 53) (-1074) ≤ e
    simp only [leastExponent] at he
    omega
  have hamount : (Format.targetExponent .binary64 (totalExponent m e) - e).toNat = 0 := by omega
  rw [UnpackedFloat.shiftToTargetExponent, UnpackedFloat.shiftToExponent]
  simp only [hamount]
  exact Prod.ext rfl (add_zero e)

/-- A mantissa that the rounding carried beyond its bits moves to the next place. -/
theorem shiftToTargetExponent_of_carry {e : Int} (he : leastExponent ≤ e) :
    UnpackedFloat.shiftToTargetExponent .binary64 (2 * leastFullMantissa) e .exact =
      (⟨leastFullMantissa, false, false⟩, e + 1) := by
  have htarget : Format.targetExponent .binary64 (totalExponent (2 * leastFullMantissa) e) =
      e + 1 := by
    have hlog : (2 * leastFullMantissa).log2 = 53 := by decide
    show max (((2 * leastFullMantissa).log2 : Int) + 1 + e - 53) (-1074) = e + 1
    simp only [leastExponent] at he
    rw [hlog]
    omega
  have hamount : (e + 1 - e).toNat = 1 := by omega
  rw [UnpackedFloat.shiftToTargetExponent, htarget, UnpackedFloat.shiftToExponent]
  simp only [hamount]
  rfl

/-- Rounding shifts a mantissa twice: to the place that it is rounded to, and to the next place if
the rounding carried it beyond its bits. -/
theorem roundWithAccuracy_of_shifts (s : UnpackedFloat.Sign) {m : Nat} {e e₁ e₂ : Int}
    {em₁ em₂ : ExtendedMantissa}
    (h₁ : UnpackedFloat.shiftToTargetExponent .binary64 m e .exact = (em₁, e₁))
    (h₂ : UnpackedFloat.shiftToTargetExponent .binary64 em₁.roundedMantissa e₁ .exact =
      (em₂, e₂)) :
    UnpackedFloat.roundWithAccuracy .binary64 s m e .exact =
      Scaled.unpacked ⟨em₂.mantissa, e₂⟩ s := by
  rw [UnpackedFloat.roundWithAccuracy, h₁]
  simp only [h₂]
  by_cases hzero : em₂.mantissa = 0
  · rw [dif_pos hzero, Scaled.unpacked, dif_neg (by simp [hzero])]
  · rw [dif_neg hzero, Scaled.unpacked, dif_pos (Nat.pos_of_ne_zero hzero)]

/-- A magnitude with no fewer bits than a double keeps is rounded to the nearest double. -/
theorem roundWithAccuracy_eq (s : UnpackedFloat.Sign) {m : Nat} (hm : 0 < m) {e : Int}
    (he : e ≤ lastPlace (Scaled.toRat ⟨m, e⟩)) :
    UnpackedFloat.roundWithAccuracy .binary64 s m e .exact =
      (Scaled.nearest (Scaled.toRat ⟨m, e⟩)).unpacked s := by
  set r := Scaled.toRat ⟨m, e⟩ with hr
  have hpos : 0 < r := mul_pos (by exact_mod_cast hm) (two_zpow_pos e)
  obtain ⟨k, hk⟩ : ∃ k : Nat, lastPlace r = e + k := ⟨(lastPlace r - e).toNat, by omega⟩
  have hunits : Scaled.roundedUnits r =
      ((k.repeat ExtendedMantissa.shiftRightOne ⟨m, false, false⟩).roundedMantissa : Nat) := by
    rw [← roundedMantissa_repeat, Scaled.roundedUnits, hk, hr, Scaled.toRat,
      zpow_add₀ (by norm_num), zpow_natCast, mul_comm (2 ^ e : Rat),
      mul_div_mul_right _ _ (two_zpow_pos e).ne']
  set units := (k.repeat ExtendedMantissa.shiftRightOne ⟨m, false, false⟩).roundedMantissa
  have hfirst : UnpackedFloat.shiftToTargetExponent .binary64 m e .exact =
      (k.repeat ExtendedMantissa.shiftRightOne ⟨m, false, false⟩, lastPlace r) := by
    have hamount : (lastPlace r - e).toNat = k := by omega
    rw [UnpackedFloat.shiftToTargetExponent, ← lastPlace_toRat hm, ← hr,
      UnpackedFloat.shiftToExponent]
    simp only [hamount]
    exact Prod.ext rfl hk.symm
  have hleast : leastExponent ≤ lastPlace r := leastExponent_le_lastPlace r
  rcases lt_or_eq_of_le (Scaled.roundedUnits_le hpos) with hlt | hcarry
  · have hmantissa : units < 2 * leastFullMantissa := by
      rw [hunits] at hlt
      exact_mod_cast hlt
    rw [roundWithAccuracy_of_shifts s hfirst (shiftToTargetExponent_of_lt hmantissa hleast),
      Scaled.nearest_of_lt hpos hlt, hunits, Int.toNat_natCast]
  · have hmantissa : units = 2 * leastFullMantissa := by
      rw [hunits] at hcarry
      exact_mod_cast hcarry
    have hsecond := shiftToTargetExponent_of_carry hleast
    rw [← hmantissa] at hsecond
    rw [roundWithAccuracy_of_shifts s hfirst hsecond, Scaled.nearest_of_carry hcarry]

/-! ## Products -/

/-- The magnitudes of two doubles have enough bits together. -/
theorem add_le_lastPlace {m m' : Nat} {e e' : Int} (hm : 0 < m) (hm' : 0 < m')
    (h : Scaled.IsDouble ⟨m, e⟩) (h' : Scaled.IsDouble ⟨m', e'⟩) :
    e + e' ≤ lastPlace (Scaled.toRat ⟨m * m', e + e'⟩) := by
  rw [lastPlace_toRat (Nat.mul_pos hm hm')]
  show e + e' ≤ max (((m * m').log2 : Int) + 1 + (e + e') - 53) (-1074)
  by_cases hfull : leastFullMantissa ≤ m * m'
  · have hlog : 52 ≤ (m * m').log2 := (Nat.le_log2 (Nat.mul_pos hm hm').ne').2 hfull
    omega
  · -- both are too small to have all bits, so their exponents are the least
    have hsmall : ¬ leastFullMantissa ≤ m := fun hle =>
      hfull (hle.trans (Nat.le_mul_of_pos_right m hm'))
    have hsmall' : ¬ leastFullMantissa ≤ m' := fun hle =>
      hfull (hle.trans (Nat.le_mul_of_pos_left m' hm))
    have he := h.full.resolve_left hsmall
    have he' := h'.full.resolve_left hsmall'
    simp only [leastExponent] at he he'
    omega

theorem toRat_mul_toRat (m m' : Nat) (e e' : Int) :
    Scaled.toRat ⟨m * m', e + e'⟩ = Scaled.toRat ⟨m, e⟩ * Scaled.toRat ⟨m', e'⟩ := by
  simp only [Scaled.toRat]
  rw [zpow_add₀ (by norm_num), Nat.cast_mul]
  ring

/-- The product of two doubles with mantissas. -/
theorem mul_eq_of_unpack {x y : Float} {s s' : UnpackedFloat.Sign} {m m' : Nat} {e e' : Int}
    {hm : 0 < m} {hm' : 0 < m'} (hx : x.toModel.unpack = .finite s m e hm)
    (hy : y.toModel.unpack = .finite s' m' e' hm') :
    x * y = .ofModel (.pack ((Scaled.nearest
      (Scaled.toRat ⟨m, e⟩ * Scaled.toRat ⟨m', e'⟩)).unpacked (s * s'))) := by
  have hdouble := isDouble_unpack x.toModel
  have hdouble' := isDouble_unpack y.toModel
  rw [hx] at hdouble
  rw [hy] at hdouble'
  have hproduct : x * y =
      .ofModel (.pack (UnpackedFloat.mul .binary64 x.toModel.unpack y.toModel.unpack)) := rfl
  rw [hproduct, hx, hy, UnpackedFloat.mul,
    roundWithAccuracy_eq _ (Nat.mul_pos hm hm') (add_le_lastPlace hm hm' hdouble hdouble'),
    toRat_mul_toRat]

/-- The product of two doubles is the double nearest to their exact product. -/
theorem mul_eq_ofRat {x y : Float} (hx : x.isFinite = true) (hy : y.isFinite = true)
    (h : toRat x * toRat y ≠ 0) : x * y = ofRat (toRat x * toRat y) := by
  rcases finite_cases hx with ⟨s, hux⟩ | ⟨s, m, e, hm, hux⟩
  · exact absurd (by rw [toRat_of_zero hux, zero_mul]) h
  rcases finite_cases hy with ⟨s', huy⟩ | ⟨s', m', e', hm', huy⟩
  · exact absurd (by rw [toRat_of_zero huy, mul_zero]) h
  have hpos : 0 < Scaled.toRat ⟨m, e⟩ := mul_pos (by exact_mod_cast hm) (two_zpow_pos e)
  have hpos' : 0 < Scaled.toRat ⟨m', e'⟩ := mul_pos (by exact_mod_cast hm') (two_zpow_pos e')
  have hproduct := mul_pos hpos hpos'
  rw [mul_eq_of_unpack hux huy, ofRat_eq]
  cases s with
  | positive =>
    rw [toRat_of_positive hux]
    cases s' with
    | positive =>
      rw [toRat_of_positive huy, abs_of_pos hproduct, signOf, if_neg hproduct.le.not_gt]
      rfl
    | negative =>
      rw [toRat_of_negative huy, mul_neg, abs_neg, abs_of_pos hproduct, signOf,
        if_pos (neg_neg_of_pos hproduct)]
      rfl
  | negative =>
    rw [toRat_of_negative hux]
    cases s' with
    | positive =>
      rw [toRat_of_positive huy, neg_mul, abs_neg, abs_of_pos hproduct, signOf,
        if_pos (neg_neg_of_pos hproduct)]
      rfl
    | negative =>
      rw [toRat_of_negative huy, neg_mul_neg, abs_of_pos hproduct, signOf,
        if_neg hproduct.le.not_gt]
      rfl

/-- One times a double is the double. -/
theorem one_mul_double (x : Float) : 1 * x = x := by
  have hone : (1 : Float).toModel.unpack = .finite .positive (2 ^ 52) (-52) (by decide) := by
    have hmodel : (1 : Float) =
        .ofModel (.pack (.finite .positive (2 ^ 52) (-52) (by decide))) := by
      decide +kernel
    rw [hmodel]
    exact unpack_pack ⟨by decide, .inl (by decide), by decide, by decide⟩
  have hvalue : Scaled.toRat ⟨2 ^ 52, -52⟩ = 1 := by norm_num [Scaled.toRat]
  have hproduct : 1 * x =
      .ofModel (.pack (UnpackedFloat.mul .binary64 (1 : Float).toModel.unpack
        x.toModel.unpack)) := rfl
  have hsign : ∀ s : UnpackedFloat.Sign, .positive * s = s := by
    intro s
    cases s <;> rfl
  have hdouble := isDouble_unpack x.toModel
  refine eq_of_unpack_eq ?_
  cases hx : x.toModel.unpack with
  | notANumber =>
    rw [hproduct, hone, hx]
    exact unpack_pack trivial
  | infinity s =>
    rw [hproduct, hone, hx, UnpackedFloat.mul, hsign]
    exact unpack_pack trivial
  | zero s =>
    rw [hproduct, hone, hx, UnpackedFloat.mul, hsign]
    exact unpack_pack trivial
  | finite s m e hm =>
    rw [hx] at hdouble
    rw [mul_eq_of_unpack hone hx, hvalue, one_mul, hsign, Scaled.nearest_toRat hdouble hm,
      Scaled.unpacked, dif_pos hm]
    exact unpack_pack hdouble

end Reckoner.Number
