import Reckoner.Number.Layout

/-!
# Results as they are displayed

A result is displayed as a whole number where it is one of at most fifteen digits, with fifteen
places in the usual range, and with fifteen significant digits and an exponent beyond it.  Places
and digits are rounded to the nearest, a half to the even neighbour, and zeros at the end are left
out.
-/

namespace Reckoner.Number

/-- The places and the significant digits of a displayed result. -/
def displayDigits : Nat := 15

/-- The text without the zeros at its end, and without a point that is then its last character. -/
def dropTrailingZeros (t : Text) : Text :=
  let kept := (t.reverse.dropWhile (· == '0'))
  (kept.dropWhile (· == '.')).reverse

/-- A magnitude with a fixed number of places behind the point. -/
def fixedPlaces (places : Nat) (r : Rat) : Text :=
  let units := (roundHalfEven (r * Nat.pow 10 places)).toNat
  Text.ofNat (units / Nat.pow 10 places) ++ '.' ::
    paddedDigits places (units % Nat.pow 10 places)

/-- The exponent of the power of ten at or below a positive number. -/
def decimalExponent (r : Rat) : Int :=
  let e : Int := (digitCount r.num.natAbs : Int) - digitCount r.den
  if (10 : Rat) ^ e ≤ r then e else e - 1

/-- The nearest decimal of so many significant digits. -/
def roundToDigits (count : Nat) (r : Rat) : Decimal :=
  let exponent := decimalExponent r - (count - 1 : Nat)
  ⟨(roundHalfEven (r / (10 : Rat) ^ exponent)).toNat, exponent⟩

/-- A magnitude with so many significant digits and an exponent, without zeros at the end. -/
def significant (count : Nat) (r : Rat) : Text :=
  let d := roundToDigits count r
  let exponent := Decimal.exponentText (d.pointPosition - 1)
  match Text.ofNat d.digits with
  | [] => exponent
  | digit :: rest => dropTrailingZeros (digit :: '.' :: rest) ++ exponent

/-- The bound below which a result is displayed with an exponent. -/
def smallBound : Float := 1e-6

/-- The text of a result. -/
def displayText (x : Float) : Text :=
  if x.isNaN then ['N', 'a', 'N']
  else if x.isInf then if 0 < x then ['∞'] else ['-', '∞']
  else if isPlainWhole x then Text.ofInt (toRat x).num
  else
    let unsigned :=
      if plainBound ≤ x.abs || x.abs < smallBound then significant displayDigits (magnitude x)
      else dropTrailingZeros (fixedPlaces displayDigits (magnitude x))
    if isNegative x then '-' :: unsigned else unsigned

end Reckoner.Number
