import Reckoner.Number.Binary

/-!
# Decimal numbers

A decimal number is its digits, read as one natural number, and a power of ten.
-/

namespace Reckoner.Number

/-- The number `digits * 10 ^ exponent`. -/
structure Decimal where
  /-- The digits, read as one natural number. -/
  digits : Nat
  /-- The power of ten of the last digit. -/
  exponent : Int
  deriving DecidableEq, Repr

namespace Decimal

/-- The decimal number as a fraction. -/
def toRat (d : Decimal) : Rat := (d.digits : Rat) * (10 : Rat) ^ d.exponent

/-- A power of ten beyond which every decimal number is infinite, and below whose inverse every
digit is nothing, as a double. -/
def farExponent : Nat := 400

/-- The double nearest to a decimal number; an infinity beyond the range.  Numbers far outside the
range are told by their exponent alone, however large it is. -/
def toFloat (d : Decimal) : Float :=
  if d.digits = 0 then 0
  else if farExponent < d.exponent then infinity
  else if d.exponent + d.digits.log2 < -farExponent then 0
  else ofRat d.toRat

end Decimal

end Reckoner.Number
