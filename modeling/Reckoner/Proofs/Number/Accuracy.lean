import Mathlib
import Reckoner.Proofs.Number.Comparison
import Reckoner.Proofs.Number.Shown

/-!
# How exact a displayed result is

A result that is a whole number of at most fifteen digits is displayed as it is, one in the usual
range is rounded to fifteen places, and any other is rounded to fifteen significant digits
(`displayText_spec`).  The two bounds are compared as doubles.  The upper one is a power of ten.
The lower one is no decimal fraction but lies so near to one that both roundings are the same
between the two (`roundsTo_of_smallBound_le`).
-/

namespace Reckoner.Number

/-! ## The bounds between the layouts -/

/-- A whole number of at most fifteen digits. -/
def IsShortWhole (v : Rat) : Prop := v.den = 1 ∧ |v| < 10 ^ 15

/-- The magnitudes that are displayed with places and without a power of ten. -/
def IsUsual (v : Rat) : Prop := 10 ^ (-6 : Int) ≤ |v| ∧ |v| < 10 ^ 15

theorem toRat_plainBound : toRat plainBound = 10 ^ 15 := by
  have hsign : isNegative plainBound = false := by decide
  have hmagnitude : magnitude plainBound = 10 ^ 15 := by decide +kernel
  rw [toRat, hsign, hmagnitude]
  rfl

/-- The lower bound is the double that is the nearest to a millionth. -/
theorem toRat_smallBound : toRat smallBound = 4722366482869645 / 2 ^ 72 := by
  have hsign : isNegative smallBound = false := by decide
  have hscaled : scaled smallBound = ⟨4722366482869645, -72⟩ := by decide +kernel
  rw [toRat, hsign, magnitude, hscaled, Scaled.toRat]
  norm_num

/-- The lower bound is a little less than a millionth. -/
theorem toRat_smallBound_lt : toRat smallBound < 10 ^ (-6 : Int) := by
  rw [toRat_smallBound]
  norm_num

theorem isFinite_plainBound : plainBound.isFinite = true := by decide

theorem isFinite_smallBound : smallBound.isFinite = true := by decide

section

variable {x : Float} (h : x.isFinite = true)
include h

theorem abs_lt_iff {y : Float} (hy : y.isFinite = true) : x.abs < y ↔ |toRat x| < toRat y := by
  rw [lt_iff_toRat_lt (by rwa [isFinite_abs]) hy, toRat_abs]

theorem le_abs_iff {y : Float} (hy : y.isFinite = true) : y ≤ x.abs ↔ toRat y ≤ |toRat x| := by
  rw [le_iff_toRat_le hy (by rwa [isFinite_abs]), toRat_abs]

theorem isPlainWhole_iff : isPlainWhole x = true ↔ IsShortWhole (toRat x) := by
  rw [isPlainWhole, isWhole, h, Bool.true_and, Bool.and_eq_true, beq_iff_eq, decide_eq_true_iff,
    abs_lt_iff h isFinite_plainBound, toRat_plainBound]
  rfl

/-- The text of a short whole number. -/
theorem displayText_of_isShortWhole (hwhole : IsShortWhole (toRat x)) :
    displayText x = Text.ofInt (toRat x).num := by
  rw [displayText, if_neg (Bool.eq_false_iff.1 (not_isNaN_of_isFinite h)),
    if_neg (Bool.eq_false_iff.1 (not_isInf_of_isFinite h)), if_pos ((isPlainWhole_iff h).2 hwhole)]

/-- The text of any other number. -/
theorem displayText_of_not_isShortWhole (hwhole : ¬ IsShortWhole (toRat x)) :
    displayText x =
      (let unsigned :=
        if 10 ^ 15 ≤ |toRat x| ∨ |toRat x| < toRat smallBound then
          significant displayDigits (magnitude x)
        else dropTrailingZeros (fixedPlaces displayDigits (magnitude x))
      if isNegative x then '-' :: unsigned else unsigned) := by
  have hbounds : (decide (plainBound ≤ x.abs) || decide (x.abs < smallBound)) = true ↔
      10 ^ 15 ≤ |toRat x| ∨ |toRat x| < toRat smallBound := by
    rw [Bool.or_eq_true, decide_eq_true_iff, decide_eq_true_iff, le_abs_iff h isFinite_plainBound,
      abs_lt_iff h isFinite_smallBound, toRat_plainBound]
  rw [displayText, if_neg (Bool.eq_false_iff.1 (not_isNaN_of_isFinite h)),
    if_neg (Bool.eq_false_iff.1 (not_isInf_of_isFinite h)),
    if_neg (fun hplain => hwhole ((isPlainWhole_iff h).1 hplain))]
  simp only [hbounds]

end

/-! ## Roundings -/

/-- A fraction rounded to places is near to it. -/
theorem abs_roundHalfEven_places_sub_le (places : Nat) (r : Rat) :
    |roundHalfEven (r * 10 ^ places) * 10 ^ (-(places : Int)) - r| ≤
      10 ^ (-(places : Int)) / 2 := by
  have hpos : (0 : Rat) < 10 ^ (-(places : Int)) := ten_zpow_pos _
  have hscaled : r / 10 ^ (-(places : Int)) = r * 10 ^ places := by
    rw [zpow_neg, div_inv_eq_mul, zpow_natCast]
  rw [abs_units_sub _ r _ hpos, hscaled]
  have hnear := abs_roundHalfEven_sub_le (r * 10 ^ places)
  calc |(roundHalfEven (r * 10 ^ places) : Rat) - r * 10 ^ places| * 10 ^ (-(places : Int))
      ≤ 1 / 2 * 10 ^ (-(places : Int)) := by gcongr
    _ = 10 ^ (-(places : Int)) / 2 := by ring

/-- Between the lower bound and a millionth, fifteen places are fifteen significant digits: both
roundings give the millionth. -/
theorem roundsTo_of_smallBound_le {r : Rat} (hle : toRat smallBound ≤ r)
    (hlt : r < 10 ^ (-6 : Int)) :
    RoundsTo 15 r (roundHalfEven (r * 10 ^ 15) * 10 ^ (-(15 : Nat) : Int)) := by
  rw [toRat_smallBound] at hle
  have hmillionth : (10 : Rat) ^ (-6 : Int) = 1 / 10 ^ 6 := by norm_num
  rw [hmillionth] at hlt
  have hunits : roundHalfEven (r * 10 ^ 15) = 10 ^ 9 := by
    apply le_antisymm
    · apply roundHalfEven_le
      push_cast
      linarith
    · apply le_roundHalfEven
      push_cast
      linarith
  have hvalue : (roundHalfEven (r * 10 ^ 15) : Rat) * 10 ^ (-(15 : Nat) : Int) = 1 / 10 ^ 6 := by
    rw [hunits]
    norm_num
  have hplace : (10 : Rat) ^ (-7 - (15 - 1 : Nat) : Int) = 1 / 10 ^ 21 := by norm_num
  have hpositive : 0 < r := lt_of_lt_of_le (by norm_num) hle
  have hnear : |1 / 10 ^ 6 - r| < 1 / 10 ^ 21 / 2 := by
    rw [abs_of_pos (by linarith)]
    linarith
  rw [hvalue]
  refine ⟨-7, 10 ^ 15, ?_, ?_, ?_, ?_, ?_⟩
  · rw [abs_of_pos hpositive]
    norm_num
    linarith
  · rw [abs_of_pos hpositive]
    norm_num
    linarith
  · rw [hplace]
    norm_num
  · rw [hplace]
    exact hnear.le
  · intro htie
    rw [hplace] at htie
    exact absurd htie hnear.ne

theorem RoundsTo.iff_eq {count : Nat} {r d : Rat} (h : RoundsTo count r d) (d' : Rat) :
    RoundsTo count r d' ↔ d' = d := by
  constructor
  · intro h'
    exact h'.unique h
  · rintro rfl
    exact h

theorem RoundsTo.signed {count : Nat} {r d : Rat} (h : RoundsTo count r d) (negative : Bool) :
    RoundsTo count (Number.signed negative r) (Number.signed negative d) := by
  cases negative with
  | false => exact h
  | true => exact h.neg

/-! ## Results -/

/-- What the text of a finite result says about the result. -/
structure Displays (v : Rat) (t : Text) (negative : Bool) (n : Numeral) : Prop where
  /-- The text shows the numeral. -/
  shows : Shows t negative n
  /-- A short whole number is shown as it is. -/
  whole : IsShortWhole v →
    signed negative n.decimal.toRat = v ∧ n.point = false ∧ n.exponent = none
  /-- Any other number in the usual range is shown with places, and nothing that could be left out
  is at the end. -/
  usual : ¬ IsShortWhole v → IsUsual v →
    |signed negative n.decimal.toRat - v| ≤ 5 * 10 ^ (-16 : Int) ∧ n.exponent = none ∧ IsTrimmed n
  /-- Beyond the range, what is shown is the number that the result rounds to. -/
  unusual : ¬ IsShortWhole v → ¬ IsUsual v →
    ∀ d, RoundsTo 15 v d ↔ d = signed negative n.decimal.toRat

/-- Zero is a short whole number. -/
theorem magnitude_pos_of_not_isShortWhole {x : Float} (hwhole : ¬ IsShortWhole (toRat x)) :
    0 < magnitude x := by
  refine (magnitude_nonneg x).lt_of_ne fun hzero => hwhole ?_
  have hrat : toRat x = 0 := by rw [← abs_eq_zero, abs_toRat, ← hzero]
  rw [hrat]
  exact ⟨rfl, by norm_num⟩

section

variable {x : Float} (h : x.isFinite = true)
include h

theorem exists_displays_of_isShortWhole (hwhole : IsShortWhole (toRat x)) :
    ∃ negative n, Displays (toRat x) (displayText x) negative n ∧
      (negative = true → n.decimal.toRat ≠ 0) := by
  have hshows := shows_ofInt (toRat x).num
  rw [← displayText_of_isShortWhole h hwhole] at hshows
  have hnum : ((toRat x).num : Rat) = toRat x := Rat.den_eq_one_iff _ |>.1 hwhole.1
  refine ⟨_, _, ⟨hshows, fun _ => ⟨?_, rfl, rfl⟩, fun hnot => absurd hwhole hnot,
    fun hnot => absurd hwhole hnot⟩, ?_⟩
  · rw [toRat_ofNat, signed_natAbs, hnum]
  · intro hneg
    have := of_decide_eq_true hneg
    rw [toRat_ofNat]
    exact_mod_cast (show (toRat x).num.natAbs ≠ 0 by omega)

theorem exists_displays_of_significant (hwhole : ¬ IsShortWhole (toRat x))
    (hbeyond : 10 ^ 15 ≤ |toRat x| ∨ |toRat x| < toRat smallBound) :
    ∃ negative n, Displays (toRat x) (displayText x) negative n ∧ n.decimal.toRat ≠ 0 := by
  obtain ⟨digit, rest, power, -, hshows, hvalue⟩ :=
    exists_shows_significant displayDigits (magnitude x)
  have hrounds := roundsTo_roundToDigits displayDigits (magnitude_pos_of_not_isShortWhole hwhole)
  rw [← hvalue] at hrounds
  refine ⟨isNegative x, _, ⟨?_, fun hnot => absurd hnot hwhole, fun _ husual => ?_, fun _ _ => ?_⟩,
    hrounds.ne_zero⟩
  · rw [displayText_of_not_isShortWhole h hwhole, if_pos hbeyond]
    exact hshows.signed _
  · exfalso
    rcases hbeyond with hlarge | hsmall
    · exact absurd husual.2 (not_lt.2 hlarge)
    · exact absurd husual.1 (not_le.2 (hsmall.trans toRat_smallBound_lt))
  · exact (hrounds.signed _).iff_eq

theorem exists_displays_of_places (hwhole : ¬ IsShortWhole (toRat x))
    (hwithin : ¬ (10 ^ 15 ≤ |toRat x| ∨ |toRat x| < toRat smallBound)) :
    ∃ negative n, Displays (toRat x) (displayText x) negative n ∧ n.decimal.toRat ≠ 0 := by
  obtain ⟨n, hshows, hexponent, htrimmed, hvalue⟩ :=
    exists_shows_fixedPlaces (show 0 < displayDigits by decide) (magnitude_nonneg x)
  obtain ⟨hlarge, hsmall⟩ := not_or.1 hwithin
  have hle : toRat smallBound ≤ magnitude x := by
    rw [← abs_toRat]
    exact not_lt.1 hsmall
  have hnear : |n.decimal.toRat - magnitude x| ≤ 5 * 10 ^ (-16 : Int) := by
    rw [hvalue]
    exact (abs_roundHalfEven_places_sub_le displayDigits (magnitude x)).trans
      (by norm_num [displayDigits])
  refine ⟨isNegative x, n,
    ⟨?_, fun hnot => absurd hnot hwhole, fun _ _ => ?_, fun _ hunusual => ?_⟩, ?_⟩
  · rw [displayText_of_not_isShortWhole h hwhole, if_neg hwithin]
    exact hshows.signed _
  · refine ⟨?_, hexponent, htrimmed⟩
    rwa [toRat_eq_signed, signed_sub, abs_signed]
  · have hlt : magnitude x < 10 ^ (-6 : Int) := by
      rw [← abs_toRat]
      by_contra hge
      exact hunusual ⟨not_lt.1 hge, not_le.1 hlarge⟩
    rw [toRat_eq_signed, hvalue]
    exact ((roundsTo_of_smallBound_le hle hlt).signed _).iff_eq
  · intro hzero
    -- the least magnitude with places is far above half a unit of the last place
    rw [hzero, zero_sub, abs_neg, abs_of_nonneg (magnitude_nonneg x)] at hnear
    have hfar : 5 * 10 ^ (-16 : Int) < toRat smallBound := by
      rw [toRat_smallBound]
      norm_num
    linarith

end

/-- The text of a finite result is a decimal number, which is the result where this is a whole
number of at most fifteen digits, is within half a unit of the fifteenth place in the usual range,
and is the result rounded to fifteen significant digits beyond the range. -/
theorem displayText_spec {x : Float} (h : x.isFinite = true) :
    (∃ negative n, Displays (toRat x) (displayText x) negative n ∧
      ∀ negative' n', Shows (displayText x) negative' n' → negative' = negative ∧ n' = n) ∧
      displayText x ∉ [['-', '0'], [], ['-']] := by
  obtain ⟨negative, n, hdisplays, hzero⟩ : ∃ negative n,
      Displays (toRat x) (displayText x) negative n ∧ (negative = true → n.decimal.toRat ≠ 0) := by
    by_cases hwhole : IsShortWhole (toRat x)
    · exact exists_displays_of_isShortWhole h hwhole
    · by_cases hbeyond : 10 ^ 15 ≤ |toRat x| ∨ |toRat x| < toRat smallBound
      · obtain ⟨negative, n, hdisplays, hne⟩ := exists_displays_of_significant h hwhole hbeyond
        exact ⟨negative, n, hdisplays, fun _ => hne⟩
      · obtain ⟨negative, n, hdisplays, hne⟩ := exists_displays_of_places h hwhole hbeyond
        exact ⟨negative, n, hdisplays, fun _ => hne⟩
  refine ⟨⟨negative, n, hdisplays, fun _ _ hother => hother.unique hdisplays.shows⟩, ?_⟩
  simp only [List.mem_cons, List.not_mem_nil, or_false, not_or]
  exact ⟨hdisplays.shows.ne_minus_zero hzero, hdisplays.shows.ne_nil, hdisplays.shows.ne_minus⟩

/-- The double nearest to a millionth is less than it, and is displayed as the millionth. -/
theorem displayText_smallBound :
    smallBound.isFinite = true ∧
      ((∃ negative n, Displays (toRat smallBound) (displayText smallBound) negative n ∧
        ∀ negative' n', Shows (displayText smallBound) negative' n' →
          negative' = negative ∧ n' = n) ∧
        displayText smallBound ∉ [['-', '0'], [], ['-']]) ∧
      ¬ IsUsual (toRat smallBound) ∧
      displayText smallBound = ['0', '.', '0', '0', '0', '0', '0', '1'] := by
  refine ⟨isFinite_smallBound, displayText_spec isFinite_smallBound, ?_, by decide +kernel⟩
  rintro ⟨hle, -⟩
  have hpositive : 0 < toRat smallBound := by
    rw [toRat_smallBound]
    norm_num
  rw [abs_of_pos hpositive] at hle
  exact absurd hle (not_le.2 toRat_smallBound_lt)

end Reckoner.Number
