import Reckoner.Text.Blank
import Reckoner.Text.Digit

/-!
# Whole numbers in settings

A whole number is written with blanks around it, an optional sign, and decimal digits of any
script with single underscores between them.  At most 4300 digits are read or written.
-/

namespace Reckoner.Text

/-- Why a text is not read as a whole number. -/
inductive IntegerFault where
  /-- The text does not have the form of a whole number. -/
  | malformed
  /-- The text has more digits than are read. -/
  | tooLong (digits : Nat)
  deriving DecidableEq, Repr

/-- The most digits that are read or written. -/
def maxIntegerDigits : Nat := 4300

/-- The blanks allowed around a whole number: all but the four ASCII separators. -/
def isIntegerBlank (c : Char) : Bool := isBlank c && !(0x1C ≤ c.toNat && c.toNat ≤ 0x1F)

/-- Whether underscores stand only between two digits, `afterDigit` telling what came before. -/
def underscoresSeparate (afterDigit : Bool) : Text → Bool
  | [] => afterDigit
  | '_' :: rest => afterDigit && underscoresSeparate false rest
  | _ :: rest => underscoresSeparate true rest

/-- Splits a sign off the beginning of a text; `true` is for a minus. -/
def takeSign : Text → Bool × Text
  | '-' :: rest => (true, rest)
  | '+' :: rest => (false, rest)
  | rest => (false, rest)

/-- Reads a text as a whole number. -/
def readInteger (t : Text) : Except IntegerFault Int :=
  let (negative, body) := takeSign (t.dropWhile isIntegerBlank)
  let run := body.takeWhile fun c => isDecimal c || c == '_'
  let rest := body.dropWhile fun c => isDecimal c || c == '_'
  let digits := run.filter isDecimal
  if !underscoresSeparate false run then .error .malformed
  else if maxIntegerDigits < digits.length then .error (.tooLong digits.length)
  else if !rest.all isIntegerBlank then .error .malformed
  else
    let value : Int := digitsValue digits
    .ok (if negative then -value else value)

/-- Whether a whole number has no more digits than are written. -/
def isWritable (n : Int) : Bool := n.natAbs < Nat.pow 10 maxIntegerDigits

end Reckoner.Text
