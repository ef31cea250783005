/-!
# Doubles as exact numbers

Every finite double is a fraction whose denominator is a power of two.  This module reads a double
as that fraction, rounds a fraction back to the nearest double, and builds on the two the
operations of whole numbers: rounding to a whole number, and the remainder of a division.
-/

namespace Reckoner.Number

open Float.Model (UnpackedFloat)

/-! ## From doubles to fractions -/

/-- A magnitude written as `mantissa * 2 ^ exponent`. -/
structure Scaled where
  /-- The mantissa. -/
  mantissa : Nat
  /-- The exponent of two. -/
  exponent : Int
  deriving DecidableEq, Repr

/-- The magnitude as a fraction. -/
def Scaled.toRat (s : Scaled) : Rat := (s.mantissa : Rat) * (2 : Rat) ^ s.exponent

/-- The magnitude of a double; zero for zero and for the doubles that are no number. -/
def scaled (x : Float) : Scaled :=
  match x.toModel.unpack with
  | .finite _ mantissa exponent _ => ⟨mantissa, exponent⟩
  | _ => ⟨0, 0⟩

/-- Whether the sign of the double is a minus, which holds of the negative zero too. -/
def isNegative (x : Float) : Bool :=
  match x.toModel.unpack with
  | .finite .negative _ _ _ => true
  | .infinity .negative => true
  | .zero .negative => true
  | _ => false

/-- The magnitude of a finite double as a fraction. -/
def magnitude (x : Float) : Rat := (scaled x).toRat

/-- A finite double as a fraction. -/
def toRat (x : Float) : Rat := if isNegative x then -magnitude x else magnitude x

/-- Whether the double is a whole number. -/
def isWhole (x : Float) : Bool := x.isFinite && (toRat x).den == 1

/-! ## Rounding to whole numbers -/

/-- The whole number nearest to a fraction, the even one when two are as near. -/
def roundHalfEven (r : Rat) : Int :=
  let below := r.floor
  let past := r - below
  if past < 1 / 2 then below
  else if 1 / 2 < past then below + 1
  else if below % 2 = 0 then below
  else below + 1

/-! ## From fractions to doubles -/

/-- The least mantissa of a double of full precision. -/
def leastFullMantissa : Nat := 4503599627370496

/-- The exponent of the smallest doubles. -/
def leastExponent : Int := -1074

/-- The exponent of the greatest power of two that is at most a positive fraction. -/
def binaryExponent (r : Rat) : Int :=
  let e : Int := (r.num.natAbs.log2 : Int) - r.den.log2
  if (2 : Rat) ^ e ≤ r then e else e - 1

/-- The exponent of the last binary place that a double keeps of a positive fraction. -/
def lastPlace (r : Rat) : Int := max (binaryExponent r - 52) leastExponent

/-- A magnitude with a sign. -/
def Scaled.unpacked (s : Scaled) (sign : UnpackedFloat.Sign) : UnpackedFloat :=
  if h : 0 < s.mantissa then .finite sign s.mantissa s.exponent h else .zero sign

/-- The positive infinity. -/
def infinity : Float := .ofModel (.pack (.infinity .positive))

/-- A positive fraction rounded to the last place that a double keeps.  A mantissa that the rounding
carries beyond its bits is a power of two, and moves to the next place. -/
def Scaled.nearest (r : Rat) : Scaled :=
  let place := lastPlace r
  let mantissa := (roundHalfEven (r / (2 : Rat) ^ place)).toNat
  if mantissa = 2 * leastFullMantissa then ⟨leastFullMantissa, place + 1⟩ else ⟨mantissa, place⟩

/-- The double nearest to a fraction, the one with the even mantissa when two are as near, and an
infinity beyond the range. -/
def ofRat (r : Rat) : Float :=
  let sign := if r < 0 then .negative else .positive
  .ofModel (.pack ((Scaled.nearest (if r < 0 then -r else r)).unpacked sign))

/-- The double nearest to a whole number, unless the number is beyond the range. -/
def ofInt? (n : Int) : Option Float :=
  let x := ofRat n
  if x.isFinite then some x else none

/-- The number with its sign changed when asked for. -/
def negateIf (negative : Bool) (x : Float) : Float := if negative then -x else x

/-! ## Whole numbers -/

/-- The whole number nearest to a finite double. -/
def round (x : Float) : Int := roundHalfEven (toRat x)

/-- A finite double without its fraction. -/
def truncate (x : Float) : Int :=
  if isNegative x then -(magnitude x).floor else (magnitude x).floor

/-- What is left of `a` after taking `b` away as often as it fits, with the sign of `a`. -/
def remainder (a b : Float) : Float :=
  let whole := (magnitude a / magnitude b).floor
  negateIf (isNegative a) (ofRat (magnitude a - whole * magnitude b))

end Reckoner.Number
