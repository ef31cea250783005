import Reckoner.Text.Digit

/-!
# Operators

The binary operators and their tiers, from the loosest to the tightest.  Some operators have two
spellings, and the two dice operators differ in whether the rolls are listed.
-/

namespace Reckoner

/-- The operators of arithmetic. -/
inductive Arithmetic where
  | add
  | subtract
  | multiply
  | divide
  | power
  | remainder
  deriving DecidableEq, Repr

/-- The binary operators. -/
inductive Operator where
  /-- Computes a number from two numbers. -/
  | arithmetic (op : Arithmetic)
  /-- Rolls dice, and lists the rolls when it is loud. -/
  | dice (loud : Bool)
  deriving DecidableEq, Repr

/-- The tiers of binary operators; operators of one tier bind equally. -/
inductive Tier where
  | sum
  | product
  | power
  | random
  deriving DecidableEq, Repr

namespace Tier

/-- The tiers from the loosest to the tightest. -/
def all : List Tier := [sum, product, power, random]

/-- The operator that a character stands for in a tier. -/
def operator? : Tier → Char → Option Operator
  | sum, '+' => some (.arithmetic .add)
  | sum, '-' => some (.arithmetic .subtract)
  | product, '*' => some (.arithmetic .multiply)
  | product, '×' => some (.arithmetic .multiply)
  | product, '/' => some (.arithmetic .divide)
  | product, '÷' => some (.arithmetic .divide)
  | power, '^' => some (.arithmetic .power)
  | random, 'd' => some (.dice false)
  | random, 'D' => some (.dice true)
  | random, '%' => some (.arithmetic .remainder)
  | _, _ => none

end Tier

/-- The sign of an operator of arithmetic in traces. -/
def Arithmetic.sign : Arithmetic → String
  | add => "+"
  | subtract => "-"
  | multiply => "*"
  | divide => "/"
  | power => "^"
  | remainder => "%"

namespace Operator

/-- What a missing operand counts as: zero in a sum, one everywhere else. -/
def neutral : Operator → Float
  | arithmetic .add | arithmetic .subtract => 0
  | _ => 1

/-- Whether a character is a binary operator. -/
def isOperator (c : Char) : Bool := Tier.all.any fun tier => (tier.operator? c).isSome

/-- Whether a plus or minus after the reversed text is no operator of its own: it is the sign of an
operand after another operator, or of the exponent after a digit or point and an `E`. -/
def isSignAfter : Text → Bool
  | [] => false
  | c :: before =>
    isOperator c ||
      c == 'E' && before.head?.any fun digit => Text.isDigit digit || digit == '.'

/-- The operator of a tier that a character stands for after the reversed text. -/
def at? (tier : Tier) (before : Text) (c : Char) : Option Operator :=
  if tier = .sum && isSignAfter before then none else tier.operator? c

end Operator

end Reckoner
