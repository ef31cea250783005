import Reckoner.Number.Shortest
import Reckoner.Text.Digit

/-!
# Numbers as text

Two texts of a double.  The full text always shows that the number is a double: it has a point or
an exponent.  The plain text, used in traces and replies, writes whole numbers below `10 ^ 15`
without a point.  Both show the fewest digits that read back as the same double.
-/

namespace Reckoner.Number

/-- Decimal digits filled with zeros on the left. -/
def paddedDigits (width n : Nat) : Text :=
  let digits := Text.ofNat n
  List.replicate (width - digits.length) '0' ++ digits

namespace Decimal

/-- How many digits stand before the point; it is negative when zeros follow the point. -/
def pointPosition (d : Decimal) : Int := (Text.ofNat d.digits).length + d.exponent

/-- The digits around a point, with one zero where a side would be empty. -/
def positional (d : Decimal) : Text :=
  let digits := Text.ofNat d.digits
  if 0 ≤ d.exponent then digits ++ List.replicate d.exponent.toNat '0' ++ ['.', '0']
  else if 0 < d.pointPosition then
    digits.take d.pointPosition.toNat ++ '.' :: digits.drop d.pointPosition.toNat
  else '0' :: '.' :: List.replicate (-d.pointPosition).toNat '0' ++ digits

/-- An exponent of ten with its sign and two digits or more. -/
def exponentText (e : Int) : Text :=
  'e' :: (if e < 0 then '-' else '+') :: paddedDigits 2 e.natAbs

/-- One digit before the point, the rest behind it, and the exponent. -/
def scientific (d : Decimal) : Text :=
  let exponent := exponentText (d.pointPosition - 1)
  match Text.ofNat d.digits with
  | [] => exponent
  | [digit] => digit :: exponent
  | digit :: rest => digit :: '.' :: rest ++ exponent

/-- The decimal as a double is shown: positional between `0.0001` and `10 ^ 16`. -/
def text (d : Decimal) : Text :=
  if -4 < d.pointPosition && d.pointPosition ≤ 16 then d.positional else d.scientific

end Decimal

/-- The text of a magnitude that is known to be finite. -/
def magnitudeText (x : Float) : Text :=
  if x == 0 then ['0', '.', '0'] else (shortest x).text

/-- The full text of a double. -/
def fullText (x : Float) : Text :=
  if x.isNaN then ['n', 'a', 'n']
  else
    let unsigned := if x.isInf then ['i', 'n', 'f'] else magnitudeText x
    if isNegative x then '-' :: unsigned else unsigned

/-- The bound below which whole numbers are written without a point. -/
def plainBound : Float := 1e15

/-- Whether the plain text of a double is a whole number. -/
def isPlainWhole (x : Float) : Bool := isWhole x && x.abs < plainBound

/-- The plain text of a double: `4` rather than `4.0`. -/
def plainText (x : Float) : Text :=
  if isPlainWhole x then Text.ofInt (toRat x).num else fullText x

end Reckoner.Number
