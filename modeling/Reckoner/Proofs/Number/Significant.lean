import Mathlib
import Reckoner.Number.Display
import Reckoner.Proofs.Number.Negation

/-!
# Significant digits

A fraction is rounded to so many significant digits by rounding it to a whole number of units, where
the unit is the last of these decimal places (`RoundsTo`).  The first place is the one that the
decimal exponent names (`decimalExponent_spec`).
-/

namespace Reckoner.Number

/-! ## The first decimal place -/

theorem ten_zpow_pos (e : Int) : (0 : Rat) < 10 ^ e := zpow_pos (by norm_num) e

/-- A number lies between the powers of ten around it. -/
theorem digitCount_bounds {n : Nat} (h : n ≠ 0) :
    (10 : Rat) ^ ((digitCount n : Int) - 1) ≤ n ∧
      (n : Rat) < 10 ^ ((digitCount n : Int) - 1 + 1) := by
  have hpos : 0 < digitCount n := Nat.length_toDigits_pos
  have hle {k : Nat} (hk : 0 < k) : digitCount n ≤ k ↔ n < 10 ^ k :=
    Nat.length_toDigits_le_iff (by decide) hk
  have hlt : n < 10 ^ digitCount n := (hle hpos).1 le_rfl
  obtain ⟨k, hk⟩ : ∃ k, digitCount n = k + 1 := ⟨digitCount n - 1, by omega⟩
  have hge : 10 ^ k ≤ n := by
    rcases Nat.eq_zero_or_pos k with rfl | hkpos
    · simpa using Nat.one_le_iff_ne_zero.2 h
    · by_contra hlt
      have := (hle hkpos).2 (not_le.1 hlt)
      omega
  rw [sub_add_cancel]
  rw [hk] at hlt ⊢
  refine ⟨?_, by exact_mod_cast hlt⟩
  rw [Nat.cast_succ, add_sub_cancel_right, zpow_natCast]
  exact_mod_cast hge

/-- A positive fraction lies between the powers of ten around it. -/
theorem decimalExponent_spec {r : Rat} (h : 0 < r) :
    (10 : Rat) ^ decimalExponent r ≤ r ∧ r < 10 ^ (decimalExponent r + 1) := by
  have hnum : 0 < r.num := Rat.num_pos.2 h
  obtain ⟨hbelow, habove⟩ := zpow_bounds (by norm_num) h
    (digitCount_bounds (show r.num.natAbs ≠ 0 by omega)) (digitCount_bounds r.den_nz)
  rw [sub_sub_sub_cancel_right] at hbelow habove
  simp only [decimalExponent]
  split
  · rename_i hle
    exact ⟨hle, habove⟩
  · rename_i hlt
    exact ⟨hbelow, by rw [sub_add_cancel]; exact not_le.1 hlt⟩

/-- The first decimal place of a number is at one power of ten only. -/
theorem first_unique {r : Rat} {e e' : Int} (hle : (10 : Rat) ^ e ≤ r) (hlt : r < 10 ^ (e + 1))
    (hle' : (10 : Rat) ^ e' ≤ r) (hlt' : r < 10 ^ (e' + 1)) : e = e' := by
  have hbelow := (zpow_lt_zpow_iff_right₀ (by norm_num)).1 (hle.trans_lt hlt')
  have habove := (zpow_lt_zpow_iff_right₀ (by norm_num)).1 (hle'.trans_lt hlt)
  omega

/-! ## Rounding to significant digits -/

theorem roundHalfEven_nonneg {r : Rat} (h : 0 ≤ r) : 0 ≤ roundHalfEven r := by
  apply le_roundHalfEven
  push_cast
  linarith

/-- A rounded fraction in units of a place. -/
theorem abs_units_sub (units : Int) (r place : Rat) (h : 0 < place) :
    |units * place - r| = |(units : Rat) - r / place| * place := by
  have hcancel : units * place - r = ((units : Rat) - r / place) * place := by
    rw [sub_mul, div_mul_cancel₀ _ h.ne']
  rw [hcancel, abs_mul, abs_of_pos h]

/-- The whole number of units that is the nearest to a fraction. -/
theorem eq_roundHalfEven {units : Int} {r d place : Rat} (h : 0 < place) (hd : d = units * place)
    (hnear : |d - r| ≤ place / 2) (heven : |d - r| = place / 2 → units % 2 = 0) :
    units = roundHalfEven (r / place) := by
  have hdistance : |d - r| = |(units : Rat) - r / place| * place := by
    rw [hd, abs_units_sub units r place h]
  rw [hdistance] at hnear heven
  symm
  apply roundHalfEven_eq
  · rw [← mul_le_mul_iff_left₀ h]
    linarith
  · intro htie
    apply heven
    rw [htie]
    ring

/-- The second number is the first one rounded to so many significant digits, a half to the even
digit: the first place is that of the leading digit, and in units of the last place the second
number is the whole number nearest to the first one. -/
def RoundsTo (count : Nat) (r d : Rat) : Prop :=
  ∃ first units : Int, (10 : Rat) ^ first ≤ |r| ∧ |r| < 10 ^ (first + 1) ∧
    d = units * 10 ^ (first - (count - 1 : Nat)) ∧
    |d - r| ≤ 10 ^ (first - (count - 1 : Nat)) / 2 ∧
    (|d - r| = 10 ^ (first - (count - 1 : Nat)) / 2 → units % 2 = 0)

namespace RoundsTo

variable {count : Nat} {r d : Rat}

theorem neg (h : RoundsTo count r d) : RoundsTo count (-r) (-d) := by
  obtain ⟨first, units, hle, hlt, hd, hnear, heven⟩ := h
  have hsame : |-d - -r| = |d - r| := by
    rw [← abs_neg]
    congr 1
    ring
  refine ⟨first, -units, ?_, ?_, ?_, ?_, ?_⟩
  · rwa [abs_neg]
  · rwa [abs_neg]
  · rw [hd, Int.cast_neg, neg_mul]
  · rwa [hsame]
  · intro htie
    have := heven (hsame.symm.trans htie)
    omega

/-- The first digit is not rounded away. -/
theorem ne_zero (h : RoundsTo count r d) : d ≠ 0 := by
  obtain ⟨first, units, hle, -, -, hnear, -⟩ := h
  rintro rfl
  rw [zero_sub, abs_neg] at hnear
  have hplace : (10 : Rat) ^ (first - (count - 1 : Nat)) ≤ 10 ^ first :=
    zpow_le_zpow_right₀ (by norm_num) (by omega)
  have := ten_zpow_pos first
  linarith

/-- A number is rounded to one number only. -/
theorem unique {d' : Rat} (h : RoundsTo count r d) (h' : RoundsTo count r d') : d = d' := by
  obtain ⟨first, units, hle, hlt, hd, hnear, heven⟩ := h
  obtain ⟨first', units', hle', hlt', hd', hnear', heven'⟩ := h'
  obtain rfl : first = first' := first_unique hle hlt hle' hlt'
  rw [hd, hd', eq_roundHalfEven (ten_zpow_pos _) hd hnear heven,
    eq_roundHalfEven (ten_zpow_pos _) hd' hnear' heven']

end RoundsTo

/-- The digits that are kept of a positive fraction are those it is rounded to. -/
theorem roundsTo_roundToDigits (count : Nat) {r : Rat} (h : 0 < r) :
    RoundsTo count r (roundToDigits count r).toRat := by
  obtain ⟨hle, hlt⟩ := decimalExponent_spec h
  set place : Rat := 10 ^ (decimalExponent r - (count - 1 : Nat)) with hplace
  have hpos : 0 < place := ten_zpow_pos _
  have hunits : (0 : Int) ≤ roundHalfEven (r / place) := roundHalfEven_nonneg (div_pos h hpos).le
  have hvalue : (roundToDigits count r).toRat = roundHalfEven (r / place) * place := by
    rw [Decimal.toRat, roundToDigits, ← hplace]
    congr 1
    exact_mod_cast congrArg (Int.cast (R := Rat)) (Int.toNat_of_nonneg hunits)
  have hdistance := abs_units_sub (roundHalfEven (r / place)) r place hpos
  refine ⟨decimalExponent r, roundHalfEven (r / place), ?_, ?_, hvalue, ?_, ?_⟩
  · rwa [abs_of_pos h]
  · rwa [abs_of_pos h]
  · rw [hvalue, hdistance, ← hplace]
    have hnear := abs_roundHalfEven_sub_le (r / place)
    calc |(roundHalfEven (r / place) : Rat) - r / place| * place ≤ 1 / 2 * place := by gcongr
      _ = place / 2 := by ring
  · intro htie
    rw [hvalue, hdistance, ← hplace] at htie
    apply even_of_abs_roundHalfEven_sub
    apply mul_right_cancel₀ hpos.ne'
    rw [htie]
    ring

end Reckoner.Number
