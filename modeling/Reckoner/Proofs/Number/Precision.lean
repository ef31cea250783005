import Mathlib
import Reckoner.Proofs.Number.Accuracy

/-!
# How many digits of a result are displayed

A double is sure of fifteen significant digits.  A whole number, a number less than one and a number
beyond the usual range never show more of them.  Any other number is shown with fifteen places,
which are too many behind the digits before the point unless those at the end are zeros
(`ShowsUnits.digits_lt_iff`).  So no more than fifteen significant digits are shown exactly if
rounding to places is rounding to significant digits (`significantDigits_displayText`).
-/

namespace Reckoner

/-! ## Digits -/

namespace Text

theorem digitValue_lt (c : Char) : digitValue c < 10 := by
  unfold digitValue
  cases h : decimalValue? c with
  | none => exact Nat.succ_pos 9
  | some n => exact decimalValue?_lt h

theorem digitValue_pos {c : Char} (h : c.isDigit = true) (hc : c ≠ '0') : 0 < digitValue c := by
  rw [digitValue_of_isDigit h]
  simp only [Char.isDigit, Bool.and_eq_true, decide_eq_true_eq] at h
  have hge : 48 ≤ c.toNat := h.1
  have hne : c.toNat ≠ '0'.toNat := fun heq => hc (Char.toNat_inj.1 heq)
  have hzero : '0'.toNat = 48 := rfl
  omega

theorem digitsValue_cons (c : Char) (t : Text) :
    digitsValue (c :: t) = digitValue c * 10 ^ t.length + digitsValue t := by
  have hone : digitsValue [c] = digitValue c := by simp [digitsValue]
  rw [← List.singleton_append, digitsValue_append, hone]

theorem digitsValue_lt (t : Text) : digitsValue t < 10 ^ t.length := by
  induction t with
  | nil => exact Nat.one_pos
  | cons c t ih =>
    have hfirst := digitValue_lt c
    calc digitsValue (c :: t)
        < digitValue c * 10 ^ t.length + 10 ^ t.length := by rw [digitsValue_cons]; omega
      _ = (digitValue c + 1) * 10 ^ t.length := (Nat.succ_mul _ _).symm
      _ ≤ 10 * 10 ^ t.length := Nat.mul_le_mul_right _ hfirst
      _ = 10 ^ (c :: t).length := by rw [List.length_cons, pow_succ']

/-- Without the zeros at their beginning, digits are as many as their number has. -/
theorem length_dropWhile_zeros_le_iff {t : Text} (h : ∀ c ∈ t, c.isDigit = true) (k : Nat) :
    (t.dropWhile (· == '0')).length ≤ k ↔ digitsValue t < 10 ^ k := by
  induction t with
  | nil => exact iff_of_true (Nat.zero_le k) (by simp [digitsValue])
  | cons c t ih =>
    obtain ⟨hc, ht⟩ := List.forall_mem_cons.1 h
    rw [digitsValue_cons]
    by_cases hzero : c = '0'
    · have hnone : digitValue c = 0 := by rw [hzero]; rfl
      rw [List.dropWhile_cons_of_pos (by simpa using hzero), hnone, Nat.zero_mul, Nat.zero_add]
      exact ih ht
    · have hpos := digitValue_pos hc hzero
      have hlt := digitsValue_lt (c :: t)
      rw [digitsValue_cons] at hlt
      rw [List.dropWhile_cons_of_neg (by simpa using hzero)]
      constructor
      · intro hle
        exact hlt.trans_le (Nat.pow_le_pow_right (by decide) hle)
      · intro hvalue
        have hfirst : 10 ^ t.length < 10 ^ k := by
          refine lt_of_le_of_lt ?_ hvalue
          exact (Nat.le_mul_of_pos_left _ hpos).trans (Nat.le_add_right _ _)
        exact (Nat.pow_lt_pow_iff_right (by decide)).1 hfirst

end Text

/-- How many digits of a numeral are significant: all from the first one on that is not zero. -/
def Numeral.significantDigits (n : Numeral) : Nat :=
  ((n.whole ++ n.fraction).dropWhile (· == '0')).length

namespace Number

namespace Shows

variable {t : Text} {negative : Bool} {n : Numeral}

theorem isDigit_of_mem (h : Shows t negative n) :
    ∀ c ∈ n.whole ++ n.fraction, c.isDigit = true := by
  intro c hc
  obtain ⟨body, rfl, hbody⟩ := h.text
  have hdecimal : Text.isDecimal c = true := by
    rcases List.mem_append.1 hc with hc | hc
    · exact h.wellFormed.whole c hc
    · exact h.wellFormed.fraction c hc
  have htext : c ∈ body.map Char.toUpper := by
    rw [hbody, Numeral.text]
    rcases List.mem_append.1 hc with hc | hc <;> simp [hc]
  obtain ⟨d, hd, rfl⟩ := List.mem_map.1 htext
  have hfigure := h.figures d (List.mem_append_right _ hd)
  simp only [isFigure, Bool.or_eq_true, List.contains_iff_mem] at hfigure
  rcases hfigure with hdigit | hsign
  · rwa [Text.toUpper_of_isDigit hdigit]
  · fin_cases hsign <;> exact absurd hdecimal (by decide)

theorem significantDigits_le_iff (h : Shows t negative n) (k : Nat) :
    n.significantDigits ≤ k ↔ n.decimal.digits < 10 ^ k :=
  Text.length_dropWhile_zeros_le_iff h.isDigit_of_mem k

end Shows

/-- The last digit behind the point is not a zero. -/
theorem IsTrimmed.not_dvd_digits {n : Numeral} (h : IsTrimmed n)
    (hdigits : ∀ c ∈ n.whole ++ n.fraction, c.isDigit = true) (hfraction : n.fraction ≠ []) :
    ¬ 10 ∣ n.decimal.digits := by
  obtain ⟨fraction, c, hlast⟩ : ∃ fraction c, n.fraction = fraction ++ [c] :=
    ⟨_, _, (List.dropLast_append_getLast hfraction).symm⟩
  have hc : c.isDigit = true := hdigits c (by simp [hlast])
  have hne : c ≠ '0' := by
    rintro rfl
    exact h.getLast? (by simp [hlast])
  have hvalue : n.decimal.digits =
      Text.digitsValue (n.whole ++ fraction) * 10 + Text.digitValue c := by
    rw [Numeral.decimal, hlast, ← List.append_assoc, Text.digitsValue_append,
      Text.digitsValue_cons]
    simp [Text.digitsValue]
  have hlt := Text.digitValue_lt c
  have hpos := Text.digitValue_pos hc hne
  omega

/-! ## Units of the last place -/

/-- The numeral shows so many units of the last place, without the zeros at its end. -/
structure ShowsUnits (places units : Nat) (n : Numeral) : Prop where
  /-- All digits are ordinary ones. -/
  digits : ∀ c ∈ n.whole ++ n.fraction, c.isDigit = true
  /-- There is no power of ten. -/
  exponent : n.exponent = none
  /-- No zero could be left out. -/
  trimmed : IsTrimmed n
  /-- The units are the value. -/
  value : n.decimal.toRat = units * 10 ^ (-(places : Int))

namespace ShowsUnits

variable {places units : Nat} {n : Numeral} (h : ShowsUnits places units n)
include h

theorem digits_mul_pow : n.decimal.digits * 10 ^ places = units * 10 ^ n.fraction.length := by
  have hexponent : n.decimal.exponent = -(n.fraction.length : Int) := by
    rw [Numeral.decimal, h.exponent]
    exact zero_sub _
  have hvalue := h.value
  rw [Decimal.toRat, hexponent, zpow_neg, zpow_neg, zpow_natCast, zpow_natCast,
    ← div_eq_mul_inv, ← div_eq_mul_inv, div_eq_div_iff (by positivity) (by positivity)] at hvalue
  exact_mod_cast hvalue

/-- As many places are left out as there are zeros at the end of the units. -/
theorem length_fraction_add_le {k : Nat} (hk : k ≤ places) (hdvd : 10 ^ k ∣ units) :
    n.fraction.length + k ≤ places := by
  by_contra hlt
  obtain ⟨q, rfl⟩ := hdvd
  obtain ⟨j, hj⟩ : ∃ j, n.fraction.length + k = places + (j + 1) :=
    ⟨n.fraction.length + k - places - 1, by omega⟩
  refine h.trimmed.not_dvd_digits h.digits (List.ne_nil_of_length_pos (by omega))
    ⟨q * 10 ^ j, ?_⟩
  have hdigits := h.digits_mul_pow
  have hpow : 0 < 10 ^ places := Nat.pow_pos (by decide)
  apply Nat.eq_of_mul_eq_mul_right hpow
  calc n.decimal.digits * 10 ^ places
      = q * 10 ^ (n.fraction.length + k) := by rw [hdigits]; ring
    _ = 10 * (q * 10 ^ j) * 10 ^ places := by rw [hj]; ring

theorem digits_mul_left_out : n.decimal.digits * 10 ^ (places - n.fraction.length) = units := by
  have hle : n.fraction.length ≤ places :=
    h.length_fraction_add_le (Nat.zero_le places) (one_dvd units)
  have hdigits := h.digits_mul_pow
  have hpow : 0 < 10 ^ n.fraction.length := Nat.pow_pos (by decide)
  apply Nat.eq_of_mul_eq_mul_right hpow
  rw [mul_assoc, ← pow_add, Nat.sub_add_cancel hle, hdigits]

/-- As many significant digits are shown as there are places, if the digits before the point are
as many as the zeros at the end. -/
theorem digits_lt_iff {first : Nat} (hfirst : first < places) (hle : 10 ^ (first + places) ≤ units)
    (hge : units ≤ 10 ^ (first + places + 1)) (hlt : units < 10 ^ (places + places)) :
    n.decimal.digits < 10 ^ places ↔ 10 ^ (first + 1) ∣ units := by
  have hleft := h.digits_mul_left_out
  constructor
  · intro hdigits
    -- fewer digits than places are too few for the units
    have hpower : 10 ^ first < 10 ^ (places - n.fraction.length) := by
      by_contra hge
      have hproduct : units < 10 ^ places * 10 ^ first := by
        rw [← hleft]
        exact Nat.mul_lt_mul_of_lt_of_le hdigits (not_lt.1 hge) (Nat.pow_pos (by decide))
      rw [← pow_add, add_comm] at hproduct
      omega
    have hzeros := (Nat.pow_lt_pow_iff_right (by decide)).1 hpower
    rw [← hleft]
    exact Dvd.dvd.mul_left (pow_dvd_pow 10 hzeros) _
  · intro hdvd
    rcases hge.lt_or_eq with hless | heq
    · have hzeros := h.length_fraction_add_le hfirst hdvd
      by_contra hdigits
      have hproduct : 10 ^ places * 10 ^ (first + 1) ≤ units := by
        rw [← hleft]
        exact Nat.mul_le_mul (not_lt.1 hdigits) (Nat.pow_le_pow_right (by decide) (by omega))
      rw [← pow_add, show places + (first + 1) = first + places + 1 by omega] at hproduct
      omega
    · -- the units are a power of ten that is beyond all places
      have hzeros : n.fraction.length + places ≤ places := by
        refine h.length_fraction_add_le le_rfl ?_
        rw [heq]
        exact pow_dvd_pow 10 (by omega)
      rw [show places - n.fraction.length = places by omega] at hleft
      rw [pow_add, ← hleft] at hlt
      exact Nat.lt_of_mul_lt_mul_right hlt

theorem digits_lt_of_le (hplaces : 0 < places) (hle : units ≤ 10 ^ places) :
    n.decimal.digits < 10 ^ places := by
  have hleft := h.digits_mul_left_out
  by_contra hdigits
  have hpow : 0 < 10 ^ (places - n.fraction.length) := Nat.pow_pos (by decide)
  have hmany : 10 ^ places ≤ units := by
    rw [← hleft]
    exact (not_lt.1 hdigits).trans (Nat.le_mul_of_pos_right _ hpow)
  -- one before the point leaves out all places
  have hone : units = 10 ^ places := le_antisymm hle hmany
  have hzeros := h.length_fraction_add_le le_rfl (dvd_of_eq hone.symm)
  rw [show places - n.fraction.length = places by omega, hone] at hleft
  have hdigit : n.decimal.digits = 1 :=
    Nat.eq_of_mul_eq_mul_right (Nat.pow_pos (by decide)) (hleft.trans (Nat.one_mul _).symm)
  rw [hdigit] at hdigits
  exact hdigits (Nat.one_lt_pow hplaces.ne' (by decide))

end ShowsUnits

/-! ## Roundings to places -/

theorem RoundsTo.signed_iff {count : Nat} {r d : Rat} (negative : Bool) :
    RoundsTo count (Number.signed negative r) (Number.signed negative d) ↔ RoundsTo count r d := by
  refine ⟨fun h => ?_, fun h => h.signed negative⟩
  cases negative with
  | false => exact h
  | true => simpa [Number.signed] using h.neg

/-- A number rounded to places is rounded to as many significant digits exactly if the places that
the digits before the point take away from them are zeros. -/
theorem roundsTo_places_iff {places first : Nat} (hplaces : 0 < places) {r : Rat}
    (hle : 10 ^ first ≤ r) (hlt : r < 10 ^ (first + 1)) :
    RoundsTo places r (roundHalfEven (r * 10 ^ places) * 10 ^ (-(places : Int))) ↔
      10 ^ (first + 1) ∣ roundHalfEven (r * 10 ^ places) := by
  have hpos : 0 < r := lt_of_lt_of_le (by positivity) hle
  have hunit : (10 : Rat) ^ ((first : Int) - (places - 1 : Nat)) =
      10 ^ (first + 1) * 10 ^ (-(places : Int)) := by
    rw [← zpow_natCast, ← zpow_add₀ (by norm_num)]
    congr 1
    push_cast [Nat.cast_sub hplaces]
    ring
  have hplace := ten_zpow_pos (-(places : Int))
  constructor
  · rintro ⟨first', units, hle', hlt', hd, -, -⟩
    rw [abs_of_pos hpos] at hle' hlt'
    obtain rfl : first' = first := by
      refine first_unique hle' hlt' ?_ ?_
      · rwa [zpow_natCast]
      · exact_mod_cast hlt
    rw [hunit, ← mul_assoc] at hd
    have hunits : roundHalfEven (r * 10 ^ places) = units * 10 ^ (first + 1) := by
      exact_mod_cast mul_right_cancel₀ hplace.ne' hd
    rw [hunits]
    exact dvd_mul_left _ _
  · rintro ⟨q, hq⟩
    have hnear := abs_roundHalfEven_places_sub_le places r
    have hless : (10 : Rat) ^ (-(places : Int)) / 2 <
        10 ^ ((first : Int) - (places - 1 : Nat)) / 2 := by
      have hpow : (1 : Rat) < 10 ^ (first + 1) := one_lt_pow₀ (by norm_num) (by omega)
      rw [hunit]
      nlinarith
    refine ⟨first, q, ?_, ?_, ?_, hnear.trans hless.le, fun htie => ?_⟩
    · rwa [abs_of_pos hpos, zpow_natCast]
    · rw [abs_of_pos hpos]
      exact_mod_cast hlt
    · rw [hunit, hq]
      push_cast
      ring
    · exact absurd htie (hnear.trans_lt hless).ne

/-- Doubles below the upper bound keep an eighth away from it. -/
theorem magnitude_le_of_lt {x : Float} (h : magnitude x < 10 ^ 15) :
    magnitude x ≤ 10 ^ 15 - 1 / 8 := by
  by_contra hgt
  rw [not_le] at hgt
  obtain ⟨hmantissa, -, -⟩ := scaled_bounds x
  have hlt : ((scaled x).mantissa : Rat) < 2 ^ 53 := by exact_mod_cast hmantissa
  have hpos := two_zpow_pos (scaled x).exponent
  rw [magnitude, Scaled.toRat] at h hgt
  have hexponent : -4 < (scaled x).exponent := by
    apply (zpow_lt_zpow_iff_right₀ (show (1 : Rat) < 2 by norm_num)).1
    norm_num
    nlinarith
  -- so the magnitude is a whole number of eighths
  obtain ⟨eighths, heighths⟩ : ∃ k : Nat,
      ((scaled x).mantissa : Rat) * 2 ^ (scaled x).exponent * 8 = k := by
    refine ⟨(scaled x).mantissa * 2 ^ ((scaled x).exponent + 3).toNat, ?_⟩
    push_cast
    rw [← zpow_natCast, Int.toNat_of_nonneg (by omega), zpow_add₀ (by norm_num)]
    ring
  have hbelow : eighths < 8 * 10 ^ 15 := by
    have : (eighths : Rat) < 8 * 10 ^ 15 := by linarith
    exact_mod_cast this
  have habove : 8 * 10 ^ 15 < eighths + 1 := by
    have : (8 * 10 ^ 15 : Rat) < eighths + 1 := by linarith
    exact_mod_cast this
  omega

/-! ## Results -/

theorem digits_roundToDigits_le {count : Nat} (hcount : 0 < count) {r : Rat} (h : 0 < r) :
    (roundToDigits count r).digits ≤ 10 ^ count := by
  obtain ⟨-, hlt⟩ := decimalExponent_spec h
  refine toNat_roundHalfEven_le ?_
  rw [div_le_iff₀ (ten_zpow_pos _), Nat.cast_pow, Nat.cast_ofNat, ← zpow_natCast,
    ← zpow_add₀ (by norm_num)]
  refine hlt.le.trans_eq ?_
  congr 1
  push_cast [Nat.cast_sub hcount]
  ring

/-- With fifteen significant digits, no more are shown. -/
theorem exists_shows_significant_le {r : Rat} (h : 0 < r) :
    ∃ n, Shows (significant 15 r) false n ∧ n.significantDigits ≤ 15 := by
  obtain ⟨digit, rest, power, hdigits, hshows, -⟩ := exists_shows_significant 15 r
  refine ⟨_, hshows, (hshows.significantDigits_le_iff 15).2 ?_⟩
  obtain ⟨k, -, hk⟩ := exists_digits_trimmed [digit] rest (some power)
  have hle := digits_roundToDigits_le (show 0 < 15 by decide) h
  rw [List.singleton_append, hdigits, Text.digitsValue_ofNat] at hk
  by_contra hmany
  have hpow : 0 < 10 ^ k := Nat.pow_pos (by decide)
  -- too many digits could be a power of ten only, whose zeros are left out
  have hten : (trimmed [digit] rest (some power)).decimal.digits = 10 ^ 15 := by
    refine le_antisymm ?_ (not_lt.1 hmany)
    exact (Nat.le_mul_of_pos_right _ hpow).trans (hk.symm.trans_le hle)
  have hnone : (trimmed [digit] rest (some power)).fraction = [] := by
    by_contra hne
    exact (isTrimmed_trimmed _ _ _).not_dvd_digits hshows.isDigit_of_mem hne
      (hten ▸ Dvd.intro_left (10 ^ 14) rfl)
  have hone : (trimmed [digit] rest (some power)).decimal.digits = Text.digitValue digit := by
    rw [Numeral.decimal, hnone, List.append_nil]
    exact (Text.digitsValue_cons digit []).trans (by simp [Text.digitsValue])
  have hlt := Text.digitValue_lt digit
  omega

section

variable {x : Float} (h : x.isFinite = true)
include h

theorem exists_precision_of_isShortWhole (hwhole : IsShortWhole (toRat x)) :
    ∃ negative n, Shows (displayText x) negative n ∧ n.significantDigits ≤ 15 := by
  have hshows := shows_ofInt (toRat x).num
  rw [← displayText_of_isShortWhole h hwhole] at hshows
  refine ⟨_, _, hshows, (hshows.significantDigits_le_iff 15).2 ?_⟩
  have hnum : ((toRat x).num : Rat) = toRat x := Rat.den_eq_one_iff _ |>.1 hwhole.1
  have hlt := hwhole.2
  rw [← hnum] at hlt
  have hdigits : (Numeral.decimal ⟨Text.ofNat (toRat x).num.natAbs, false, [], none⟩).digits =
      (toRat x).num.natAbs := by
    simp [Numeral.decimal, Text.digitsValue_ofNat]
  have habs : (((toRat x).num.natAbs : Nat) : Rat) < 10 ^ 15 := by
    rwa [Nat.cast_natAbs, Int.cast_abs]
  rw [hdigits]
  exact_mod_cast habs

theorem exists_precision_of_significant (hwhole : ¬ IsShortWhole (toRat x))
    (hbeyond : 10 ^ 15 ≤ |toRat x| ∨ |toRat x| < toRat smallBound) :
    ∃ negative n, Shows (displayText x) negative n ∧ n.significantDigits ≤ 15 := by
  obtain ⟨n, hshows, hdigits⟩ :=
    exists_shows_significant_le (magnitude_pos_of_not_isShortWhole hwhole)
  refine ⟨isNegative x, n, ?_, hdigits⟩
  rw [displayText_of_not_isShortWhole h hwhole, if_pos hbeyond]
  exact hshows.signed _

theorem exists_precision_of_places (hwhole : ¬ IsShortWhole (toRat x))
    (hwithin : ¬ (10 ^ 15 ≤ |toRat x| ∨ |toRat x| < toRat smallBound)) :
    ∃ negative n, Shows (displayText x) negative n ∧
      (|toRat x| < 1 → n.significantDigits ≤ 15) ∧
      (1 ≤ |toRat x| → (n.significantDigits ≤ 15 ↔
        RoundsTo 15 (toRat x) (signed negative n.decimal.toRat))) := by
  obtain ⟨n, hshows, hexponent, htrimmed, hvalue⟩ :=
    exists_shows_fixedPlaces (show 0 < displayDigits by decide) (magnitude_nonneg x)
  have hlarge : magnitude x < 10 ^ 15 := by
    rw [← abs_toRat]
    exact not_le.1 (not_or.1 hwithin).1
  have hnonneg : 0 ≤ roundHalfEven (magnitude x * 10 ^ 15) :=
    roundHalfEven_nonneg (mul_nonneg (magnitude_nonneg x) (by positivity))
  obtain ⟨units, hunits⟩ := Int.eq_ofNat_of_zero_le hnonneg
  have hshown : ShowsUnits 15 units n := by
    refine ⟨hshows.isDigit_of_mem, hexponent, htrimmed, ?_⟩
    rw [hvalue, displayDigits, hunits, Int.cast_natCast]
  refine ⟨isNegative x, n, ?_, fun hsmall => ?_, fun hone => ?_⟩
  · rw [displayText_of_not_isShortWhole h hwhole, if_neg hwithin]
    exact hshows.signed _
  · rw [abs_toRat] at hsmall
    refine (hshows.significantDigits_le_iff 15).2 (hshown.digits_lt_of_le (by decide) ?_)
    have hle : roundHalfEven (magnitude x * 10 ^ 15) ≤ 10 ^ 15 := by
      apply roundHalfEven_le
      push_cast
      linarith
    rw [hunits] at hle
    exact_mod_cast hle
  · rw [abs_toRat] at hone
    obtain ⟨first, hfirst, hnext⟩ := exists_nat_pow_near hone (show (1 : Rat) < 10 by norm_num)
    have hfifteen : first < 15 :=
      (pow_lt_pow_iff_right₀ (by norm_num)).1 (hfirst.trans_lt hlarge)
    have hle : ((10 ^ (first + 15) : Nat) : Int) ≤ units := by
      rw [← hunits]
      have hscaled : (10 : Rat) ^ first * 10 ^ 15 ≤ magnitude x * 10 ^ 15 := by gcongr
      apply le_roundHalfEven
      push_cast
      rw [pow_add]
      linarith
    have hge : (units : Int) ≤ (10 ^ (first + 15 + 1) : Nat) := by
      rw [← hunits]
      have hscaled : magnitude x * 10 ^ 15 ≤ 10 ^ (first + 1) * 10 ^ 15 := by gcongr
      apply roundHalfEven_le
      push_cast
      rw [show first + 15 + 1 = first + 1 + 15 by omega, pow_add _ (first + 1)]
      linarith
    have hlt : (units : Int) ≤ (10 ^ 30 - 1 : Nat) := by
      have hbound := magnitude_le_of_lt hlarge
      rw [← hunits]
      apply roundHalfEven_le
      norm_num
      linarith
    rw [toRat_eq_signed, hvalue, displayDigits, RoundsTo.signed_iff,
      roundsTo_places_iff (by decide) hfirst hnext, hshows.significantDigits_le_iff,
      hshown.digits_lt_iff hfifteen (by exact_mod_cast hle) (by exact_mod_cast hge) (by omega),
      hunits]
    exact_mod_cast Iff.rfl

end

/-- The text of a finite result is one decimal number, and it has at most fifteen significant digits
exactly if the result is a whole number, is less than one, is beyond the usual range, or is what
this decimal number is the rounding of to fifteen significant digits. -/
theorem significantDigits_displayText {x : Float} (h : x.isFinite = true) :
    ∃ negative n, Shows (displayText x) negative n ∧
      (∀ negative' n', Shows (displayText x) negative' n' → negative' = negative ∧ n' = n) ∧
      (n.significantDigits ≤ 15 ↔
        ((toRat x).den ≠ 1 → 1 ≤ |toRat x| → |toRat x| < 10 ^ 15 →
          RoundsTo 15 (toRat x) (signed negative n.decimal.toRat))) := by
  have hunique {negative : Bool} {n : Numeral} (hshows : Shows (displayText x) negative n) :
      ∀ negative' n', Shows (displayText x) negative' n' → negative' = negative ∧ n' = n :=
    fun _ _ hother => hother.unique hshows
  by_cases hwhole : IsShortWhole (toRat x)
  · obtain ⟨negative, n, hshows, hdigits⟩ := exists_precision_of_isShortWhole h hwhole
    exact ⟨negative, n, hshows, hunique hshows,
      iff_of_true hdigits fun hden => absurd hwhole.1 hden⟩
  · by_cases hbeyond : 10 ^ 15 ≤ |toRat x| ∨ |toRat x| < toRat smallBound
    · obtain ⟨negative, n, hshows, hdigits⟩ := exists_precision_of_significant h hwhole hbeyond
      refine ⟨negative, n, hshows, hunique hshows, iff_of_true hdigits fun _ hone hlt => ?_⟩
      have hsmall : toRat smallBound < 1 := by
        rw [toRat_smallBound]
        norm_num
      rcases hbeyond with hlarge | hless
      · exact absurd hlt (not_lt.2 hlarge)
      · exact absurd hone (not_le.2 (hless.trans hsmall))
    · obtain ⟨negative, n, hshows, hless, hdigits⟩ := exists_precision_of_places h hwhole hbeyond
      have hlt : |toRat x| < 10 ^ 15 := not_le.1 (not_or.1 hbeyond).1
      have hden : (toRat x).den ≠ 1 := fun hone => hwhole ⟨hone, hlt⟩
      refine ⟨negative, n, hshows, hunique hshows, ?_⟩
      rcases lt_or_ge |toRat x| 1 with hsmall | hone
      · exact iff_of_true (hless hsmall) fun _ hone => absurd hsmall (not_lt.2 hone)
      · rw [hdigits hone]
        exact ⟨fun hrounds _ _ _ => hrounds, fun hrounds => hrounds hden hone hlt⟩

/-- A tenth is less than one. -/
theorem significantDigits_tenth :
    (0.1 : Float).isFinite = true ∧
      ∃ negative n, Shows (displayText 0.1) negative n ∧ n.significantDigits ≤ 15 := by
  have hfinite : (0.1 : Float).isFinite = true := by decide +kernel
  have htenth : toRat 0.1 = 3602879701896397 / 2 ^ 55 := by decide +kernel
  obtain ⟨negative, n, hshows, -, hdigits⟩ := significantDigits_displayText hfinite
  refine ⟨hfinite, negative, n, hshows, hdigits.2 fun _ hone => ?_⟩
  rw [htenth] at hone
  norm_num at hone

/-- The double nearest to a hundred and a tenth shows eighteen significant digits. -/
theorem significantDigits_noise :
    (100.1 : Float).isFinite = true ∧
      displayText 100.1 = ['1', '0', '0', '.', '0', '9', '9', '9', '9', '9', '9', '9', '9', '9',
        '9', '9', '9', '9', '4'] ∧
      ∃ n, Shows (displayText 100.1) false n ∧ n.significantDigits = 18 := by
  have htext : displayText 100.1 = ['1', '0', '0', '.', '0', '9', '9', '9', '9', '9', '9', '9', '9',
      '9', '9', '9', '9', '9', '4'] := by decide +kernel
  refine ⟨by decide +kernel, htext, ⟨['1', '0', '0'], true, ['0', '9', '9', '9', '9', '9', '9', '9',
    '9', '9', '9', '9', '9', '9', '4'], none⟩, ?_, rfl⟩
  rw [htext]
  exact ⟨⟨List.all_eq_true.1 (by decide), List.all_eq_true.1 (by decide), .inl (by decide),
    by decide, by rintro e ⟨⟩⟩, List.all_eq_true.1 (by decide), _, rfl, rfl⟩

end Number

end Reckoner
