import Mathlib
import Reckoner.Number.Display
import Reckoner.Proofs.Expression.Literal

/-!
# The length of a displayed result

The numerator and the denominator of a double have a bounded number of digits
(`isShort_magnitude`), and so has everything that a result is displayed with.  So the text of a
result is short (`length_displayText_le`).  It is never empty (`displayText_ne_nil`).
-/

namespace Reckoner.Number

open Float.Model (UnpackedFloat)

/-! ## Digits -/

theorem length_ofNat_le {n k : Nat} (hk : 0 < k) (h : n < 10 ^ k) : (Text.ofNat n).length ≤ k :=
  (Nat.length_toDigits_le_iff (by decide) hk).2 h

theorem length_paddedDigits_le {width n k : Nat} (hk : 0 < k) (h : n < 10 ^ k)
    (hwidth : width ≤ k) : (paddedDigits width n).length ≤ k := by
  have := length_ofNat_le hk h
  simp only [paddedDigits, List.length_append, List.length_replicate]
  omega

theorem length_exponentText_le {e : Int} (h : e.natAbs < 10 ^ 4) :
    (Decimal.exponentText e).length ≤ 6 := by
  have := length_paddedDigits_le (by decide) h (show 2 ≤ 4 by decide)
  simp only [Decimal.exponentText, List.length_cons]
  omega

/-! ## Zeros at the end -/

theorem length_dropTrailingZeros_le (t : Text) : (dropTrailingZeros t).length ≤ t.length := by
  have hzeros := (List.dropWhile_sublist (fun c : Char => c == '0') (l := t.reverse)).length_le
  have hpoint := (List.dropWhile_sublist (fun c : Char => c == '.')
    (l := t.reverse.dropWhile (· == '0'))).length_le
  simp only [dropTrailingZeros, List.length_reverse] at hzeros hpoint ⊢
  exact hpoint.trans hzeros

/-- The digits before the point are kept. -/
theorem dropTrailingZeros_ne_nil {digits : Text} {c : Char} (hc : c ∈ digits) (hpoint : c ≠ '.')
    (places : Text) : dropTrailingZeros (digits ++ '.' :: places) ≠ [] := by
  obtain ⟨kept, hkept⟩ : ∃ kept, (digits ++ '.' :: places).reverse.dropWhile (· == '0') =
      kept ++ '.' :: digits.reverse := by
    rw [List.reverse_append, List.reverse_cons, List.append_assoc, List.dropWhile_append]
    split
    · exact ⟨[], rfl⟩
    · exact ⟨_, rfl⟩
  rw [dropTrailingZeros, hkept, ne_eq, List.reverse_eq_nil_iff, List.dropWhile_eq_nil_iff]
  intro hall
  -- dropping zeros and points stops at the digit at the latest
  have hc' := hall c (by simp [hc])
  exact hpoint (by simpa using hc')

/-! ## Short fractions -/

/-- The numerator and the denominator have at most so many digits. -/
structure IsShort (k : Nat) (r : Rat) : Prop where
  /-- The numerator is short. -/
  num_lt : r.num.natAbs < 10 ^ k
  /-- The denominator is short. -/
  den_lt : r.den < 10 ^ k

/-- A power of two has at most a third of its exponent in digits. -/
theorem two_pow_lt_ten_pow {n k : Nat} (hk : 0 < k) (h : n ≤ 3 * k) : 2 ^ n < 10 ^ k := by
  calc 2 ^ n ≤ 2 ^ (3 * k) := Nat.pow_le_pow_right (by decide) h
    _ = 8 ^ k := by rw [pow_mul]; rfl
    _ < 10 ^ k := Nat.pow_lt_pow_left (by decide) hk.ne'

theorem isShort_divInt {n d k : Nat} (hn : n < 10 ^ k) (hd : 0 < d) (hdk : d < 10 ^ k) :
    IsShort k (Rat.divInt n d) where
  num_lt := by
    rcases Nat.eq_zero_or_pos n with rfl | hpos
    · simp
    · have hdvd : (Rat.divInt n d).num ∣ (n : Int) := Rat.num_dvd _ (by exact_mod_cast hd.ne')
      exact (Nat.le_of_dvd hpos (Int.natAbs_dvd_natAbs.2 hdvd)).trans_lt hn
  den_lt :=
    (Nat.le_of_dvd hd (Int.natCast_dvd_natCast.1 (Rat.den_dvd _ _))).trans_lt hdk

/-- A magnitude is a fraction over a power of two. -/
theorem Scaled.isShort_toRat {s : Scaled} {places k : Nat} (hk : 0 < k)
    (hmantissa : s.mantissa < 2 ^ 53) (hleast : 0 ≤ s.exponent + places)
    (hgreatest : 53 + (s.exponent + places).toNat ≤ 3 * k) (hplaces : places ≤ 3 * k) :
    IsShort k s.toRat := by
  have hpower : (2 : Rat) ^ s.exponent = 2 ^ (s.exponent + places).toNat / 2 ^ places := by
    rw [← zpow_natCast, ← zpow_natCast, ← zpow_sub₀ (by norm_num), Int.toNat_of_nonneg hleast,
      add_sub_cancel_right]
  have hfraction : s.toRat =
      Rat.divInt (s.mantissa * 2 ^ (s.exponent + places).toNat : Nat) (2 ^ places : Nat) := by
    rw [Scaled.toRat, hpower, Rat.divInt_eq_div, mul_div_assoc']
    push_cast
    rfl
  have hnum : s.mantissa * 2 ^ (s.exponent + places).toNat < 10 ^ k :=
    calc s.mantissa * 2 ^ (s.exponent + places).toNat
        < 2 ^ 53 * 2 ^ (s.exponent + places).toNat :=
          Nat.mul_lt_mul_of_pos_right hmantissa (Nat.two_pow_pos _)
      _ = 2 ^ (53 + (s.exponent + places).toNat) := (pow_add _ _ _).symm
      _ < 10 ^ k := two_pow_lt_ten_pow hk hgreatest
  rw [hfraction]
  exact isShort_divInt hnum (Nat.two_pow_pos _) (two_pow_lt_ten_pow hk hplaces)

theorem scaled_bounds (x : Float) : (scaled x).mantissa < 2 ^ 53 ∧
    leastExponent ≤ (scaled x).exponent ∧ (scaled x).exponent ≤ greatestExponent := by
  have hdouble := isDouble_unpack x.toModel
  unfold scaled
  cases hunpack : x.toModel.unpack with
  | finite s m e hm =>
    rw [hunpack] at hdouble
    exact ⟨hdouble.lt, hdouble.least_le, hdouble.le_greatest⟩
  | notANumber | infinity | zero =>
    exact (by decide : 0 < 2 ^ 53 ∧ leastExponent ≤ 0 ∧ 0 ≤ greatestExponent)

/-- No double has more digits. -/
def mostDigits : Nat := 700

theorem isShort_magnitude (x : Float) : IsShort mostDigits (magnitude x) := by
  obtain ⟨hmantissa, hleast, hgreatest⟩ := scaled_bounds x
  simp only [leastExponent, greatestExponent] at hleast hgreatest
  refine Scaled.isShort_toRat (by decide) hmantissa (show 0 ≤ _ + ((1074 : Nat) : Int) by omega)
    ?_ (by decide)
  simp only [mostDigits]
  omega

/-- Rounding does not pass a whole number. -/
theorem toNat_roundHalfEven_le {r : Rat} {n : Nat} (h : r ≤ n) : (roundHalfEven r).toNat ≤ n := by
  have hround : roundHalfEven r ≤ (n : Int) := by
    refine roundHalfEven_le ?_
    push_cast
    linarith
  omega

section

variable {k : Nat} {r : Rat} (h : IsShort k r)
include h

theorem IsShort.pos : 0 < k := by
  have hden := r.den_pos
  have hlt := h.den_lt
  rcases Nat.eq_zero_or_pos k with rfl | hk
  · omega
  · exact hk

theorem IsShort.le : r ≤ 10 ^ k := by
  have hden : (1 : Rat) ≤ r.den := by exact_mod_cast r.den_pos
  have hnum : (r.num : Rat) ≤ 10 ^ k := by
    have hlt := h.num_lt
    have hle : r.num ≤ ((10 ^ k : Nat) : Int) := by omega
    exact_mod_cast hle
  calc r = r.num / r.den := (Rat.num_div_den r).symm
    _ ≤ 10 ^ k := (div_le_iff₀ (by linarith)).2
      (hnum.trans (le_mul_of_one_le_right (by positivity) hden))

/-- The exponent of a short fraction is small. -/
theorem IsShort.decimalExponent_bounds :
    -(k : Int) ≤ decimalExponent r ∧ decimalExponent r < k := by
  have hnum : digitCount r.num.natAbs ≤ k :=
    (Nat.length_toDigits_le_iff (by decide) h.pos).2 h.num_lt
  have hden : digitCount r.den ≤ k := (Nat.length_toDigits_le_iff (by decide) h.pos).2 h.den_lt
  have hnum' : 0 < digitCount r.num.natAbs := Nat.length_toDigits_pos
  have hden' : 0 < digitCount r.den := Nat.length_toDigits_pos
  simp only [decimalExponent]
  split <;> omega

theorem IsShort.length_fixedPlaces_le {places : Nat} (hplaces : 0 < places) :
    (fixedPlaces places r).length ≤ k + places + 2 := by
  have hunits : (roundHalfEven (r * (10 ^ places : Nat))).toNat ≤ 10 ^ k * 10 ^ places := by
    refine toNat_roundHalfEven_le ?_
    push_cast
    exact mul_le_mul_of_nonneg_right h.le (by positivity)
  have hwhole : (roundHalfEven (r * (10 ^ places : Nat))).toNat / 10 ^ places < 10 ^ (k + 1) :=
    calc (roundHalfEven (r * (10 ^ places : Nat))).toNat / 10 ^ places
        ≤ 10 ^ k := Nat.div_le_of_le_mul (hunits.trans_eq (mul_comm _ _))
      _ < 10 ^ (k + 1) := Nat.pow_lt_pow_right (by decide) k.lt_succ_self
  have hdigits := length_ofNat_le k.succ_pos hwhole
  have hpadded := length_paddedDigits_le hplaces
    (Nat.mod_lt (roundHalfEven (r * (10 ^ places : Nat))).toNat (Nat.pow_pos (by decide))) le_rfl
  simp only [fixedPlaces, Nat.pow_eq, List.length_append, List.length_cons]
  omega

/-- The digits that are kept of a short fraction are not many. -/
theorem IsShort.length_digits_le {count : Nat} (hcount : 0 < count) :
    (Text.ofNat (roundToDigits count r).digits).length ≤ 2 * k + count := by
  have hexponent : -((k + (count - 1) : Nat) : Int) ≤ decimalExponent r - (count - 1 : Nat) := by
    have := h.decimalExponent_bounds.1
    push_cast
    omega
  have hscaled : r / (10 : Rat) ^ (decimalExponent r - (count - 1 : Nat)) ≤
      ((10 ^ (2 * k + (count - 1)) : Nat) : Rat) := by
    have hstep : (10 : Rat) ^ (-((k + (count - 1) : Nat) : Int)) ≤
        10 ^ (decimalExponent r - (count - 1 : Nat)) := zpow_le_zpow_right₀ (by norm_num) hexponent
    rw [div_le_iff₀ (by positivity)]
    calc r ≤ 10 ^ k := h.le
      _ = ((10 ^ (2 * k + (count - 1)) : Nat) : Rat) * 10 ^ (-((k + (count - 1) : Nat) : Int)) := by
        push_cast
        rw [← zpow_natCast, ← zpow_natCast, ← zpow_add₀ (by norm_num)]
        congr 1
        push_cast
        ring
      _ ≤ _ := mul_le_mul_of_nonneg_left hstep (by positivity)
  refine length_ofNat_le (by omega) ?_
  calc (roundToDigits count r).digits
      ≤ 10 ^ (2 * k + (count - 1)) := toNat_roundHalfEven_le hscaled
    _ < 10 ^ (2 * k + count) := Nat.pow_lt_pow_right (by decide) (by omega)

theorem IsShort.length_significant_le {count : Nat} (hcount : 0 < count)
    (hk : 3 * k + count < 10 ^ 4) : (significant count r).length ≤ 2 * k + count + 7 := by
  have hdigits := h.length_digits_le hcount
  have hbounds := h.decimalExponent_bounds
  have hexponent : ((roundToDigits count r).pointPosition - 1).natAbs < 10 ^ 4 := by
    have hpoint : (roundToDigits count r).pointPosition =
        (Text.ofNat (roundToDigits count r).digits).length +
          (decimalExponent r - (count - 1 : Nat)) := rfl
    omega
  have htext := length_exponentText_le hexponent
  simp only [significant]
  split
  · omega
  · rename_i digit rest hne
    have hzeros := length_dropTrailingZeros_le (digit :: '.' :: rest)
    rw [hne] at hdigits
    simp only [List.length_append, List.length_cons] at hdigits hzeros ⊢
    omega

end

/-! ## Results -/

theorem length_ofInt_le {n : Int} {k : Nat} (hk : 0 < k) (h : n.natAbs < 10 ^ k) :
    (Text.ofInt n).length ≤ k + 1 := by
  cases n with
  | ofNat n => exact (length_ofNat_le hk h).trans k.le_succ
  | negSucc n => exact Nat.succ_le_succ (length_ofNat_le hk h)

theorem ofInt_ne_nil (n : Int) : Text.ofInt n ≠ [] := by
  cases n with
  | ofNat n => exact Text.ofNat_ne_nil n
  | negSucc n => exact List.cons_ne_nil _ _

theorem significant_ne_nil (count : Nat) (r : Rat) : significant count r ≠ [] := by
  simp only [significant]
  split <;> simp [Decimal.exponentText]

theorem dropTrailingZeros_fixedPlaces_ne_nil (places : Nat) (r : Rat) :
    dropTrailingZeros (fixedPlaces places r) ≠ [] := by
  obtain ⟨c, rest, hdigits⟩ := List.exists_cons_of_ne_nil (Text.ofNat_ne_nil
    ((roundHalfEven (r * Nat.pow 10 places)).toNat / Nat.pow 10 places))
  have hc : c.isDigit = true := Text.isDigit_of_mem_ofNat (hdigits ▸ List.mem_cons_self)
  refine dropTrailingZeros_ne_nil (hdigits ▸ List.mem_cons_self) ?_ _
  rintro rfl
  exact absurd hc (by decide)

/-- The forms that the text of a result may have. -/
theorem displayText_cases {p : Text → Prop} (x : Float) (hnan : p ['N', 'a', 'N'])
    (hinf : p ['∞']) (hneg : p ['-', '∞']) (hwhole : p (Text.ofInt (toRat x).num))
    (hsignificant : ∀ sign : Bool, p ((if sign then ['-'] else []) ++
      significant displayDigits (magnitude x)))
    (hfixed : ∀ sign : Bool, p ((if sign then ['-'] else []) ++
      dropTrailingZeros (fixedPlaces displayDigits (magnitude x)))) :
    p (displayText x) := by
  unfold displayText
  split_ifs
  · exact hnan
  · exact hinf
  · exact hneg
  · exact hwhole
  · exact hsignificant true
  · exact hsignificant false
  · exact hfixed true
  · exact hfixed false

/-- The text of a result is not empty. -/
theorem displayText_ne_nil (x : Float) : displayText x ≠ [] := by
  refine displayText_cases (p := (· ≠ [])) x (List.cons_ne_nil _ _) (List.cons_ne_nil _ _)
    (List.cons_ne_nil _ _) (ofInt_ne_nil _) (fun sign => ?_) fun sign => ?_
  · exact List.append_ne_nil_of_right_ne_nil _ (significant_ne_nil _ _)
  · exact List.append_ne_nil_of_right_ne_nil _ (dropTrailingZeros_fixedPlaces_ne_nil _ _)

/-- The text of a result is short. -/
theorem length_displayText_le (x : Float) : (displayText x).length ≤ 1500 := by
  have hshort := isShort_magnitude x
  have hsign : ∀ sign : Bool, (if sign then ['-'] else [] : Text).length ≤ 1 := by decide
  refine displayText_cases (p := (·.length ≤ 1500)) x (by decide) (by decide) (by decide) ?_
    (fun sign => ?_) fun sign => ?_
  · have hnum : (toRat x).num.natAbs < 10 ^ mostDigits := by
      rw [toRat]
      split
      · rw [Rat.num_neg_eq_neg_num, Int.natAbs_neg]
        exact hshort.num_lt
      · exact hshort.num_lt
    exact (length_ofInt_le (by decide) hnum).trans (by decide)
  · have hlength := hshort.length_significant_le (show 0 < displayDigits by decide) (by decide)
    rw [List.length_append]
    exact (Nat.add_le_add (hsign sign) hlength).trans (by decide)
  · have hlength := (length_dropTrailingZeros_le _).trans
      (hshort.length_fixedPlaces_le (show 0 < displayDigits by decide))
    rw [List.length_append]
    exact (Nat.add_le_add (hsign sign) hlength).trans (by decide)

end Reckoner.Number
