import Reckoner.Symbol.Basic
import Reckoner.Number.Binary
import Reckoner.Number.Library

/-!
# Applying a function

The domain of each function, and its value.  A function is computed in doubles; rounding up and
down give whole numbers.  A value that does not exist or does not fit is a fault, named by its
cause.
-/

namespace Reckoner

/-! ## Values and faults -/

/-- The value of a function: a double or a whole number. -/
inductive MathValue where
  | real (x : Float)
  | whole (n : Int)
  deriving DecidableEq

/-- The value as a double. -/
def MathValue.toFloat : MathValue → Float
  | .real x => x
  | .whole n => Number.ofRat n

/-- Why a function has no value. -/
inductive MathFault where
  /-- The function is not defined at its argument. -/
  | notDefined
  /-- The value is too large for a double. -/
  | tooLarge
  /-- An infinity is rounded to a whole number. -/
  | infiniteWhole
  /-- Something that is no number is rounded to a whole number. -/
  | nanWhole
  /-- There is nothing to choose the largest or smallest from. -/
  | nothingToChoose (f : MathFunction)
  /-- The logarithm of the base is zero. -/
  | zeroDivisor
  /-- There are fewer arguments than the function looks at. -/
  | missingArgument
  deriving DecidableEq, Repr

/-- The wording of a fault; a missing argument has none. -/
def MathFault.message : MathFault → String
  | .notDefined => "math domain error"
  | .tooLarge => "math range error"
  | .infiniteWhole => "cannot convert float infinity to integer"
  | .nanWhole => "cannot convert float NaN to integer"
  | .nothingToChoose f => s!"{f.name}() arg is an empty sequence"
  | .zeroDivisor => "float division by zero"
  | .missingArgument => ""

/-- Whether an evaluation reports the fault and goes on.  The others stop it. -/
def MathFault.isReported : MathFault → Bool
  | .zeroDivisor | .missingArgument => false
  | _ => true

namespace MathFunction

/-! ## Domains -/

/-- Whether the arguments lie in the domain of a function. -/
def domain (f : MathFunction) (args : List Float) : Bool :=
  match f, args with
  | sqrt, [x] => 0 ≤ x
  | ln, [x] => 0 < x
  | arcsin, [x] | arccos, [x] => x.abs ≤ 1
  | log, [base, x] => 0 < base && 0 < x && base != 1
  | sqrt, _ | ln, _ | arcsin, _ | arccos, _ | log, _ => false
  | _, _ => true

/-! ## Values -/

/-- A double computed from an argument: it exists if it is a number or the argument is none, and
it fits if it is finite or the argument is not. -/
def checked (argument result : Float) : Except MathFault Float :=
  if result.isNaN && !argument.isNaN then .error .notDefined
  else if result.isInf && argument.isFinite then .error .tooLarge
  else .ok result

/-- The natural logarithm, which exists for positive numbers. -/
def logarithm [MathLibrary] (x : Float) : Except MathFault Float :=
  if x.isNaN || 0 < x then .ok (MathLibrary.log x) else .error .notDefined

/-- The cube root, with the sign of the number. -/
def cubeRoot [MathLibrary] (x : Float) : Float :=
  Number.negateIf (Number.isNegative x) (MathLibrary.pow x.abs (1 / 3))

/-- A double rounded to a whole number by rounding a fraction. -/
def rounded (rule : Rat → Int) (x : Float) : Except MathFault MathValue :=
  if x.isNaN then .error .nanWhole
  else if x.isInf then .error .infiniteWhole
  else .ok (.whole (rule (Number.toRat x)))

/-- The argument that beats all arguments before it, the first of equal ones. -/
def best (f : MathFunction) (beats : Float → Float → Bool) : List Float → Except MathFault Float
  | [] => .error (.nothingToChoose f)
  | x :: rest => .ok (rest.foldl (fun kept y => if beats y kept then y else kept) x)

/-- The logarithm of the second argument in the base of the first. -/
def logarithmInBase [MathLibrary] (base x : Float) : Except MathFault Float := do
  let above ← logarithm x
  let below ← logarithm base
  if below == 0 then .error .zeroDivisor else .ok (above / below)

/-- A function of one argument at that argument. -/
def applyOne [MathLibrary] (f : MathFunction) (x : Float) : Except MathFault MathValue :=
  match f with
  | abs => .ok (.real x.abs)
  | sqrt => .real <$> checked x x.sqrt
  | cbrt => .ok (.real (cubeRoot x))
  | ln => .real <$> logarithm x
  | exp => .real <$> checked x (MathLibrary.exp x)
  | sin => .real <$> checked x (MathLibrary.sin x)
  | cos => .real <$> checked x (MathLibrary.cos x)
  | tan => .real <$> checked x (MathLibrary.tan x)
  | arcsin => .real <$> checked x (MathLibrary.asin x)
  | arccos => .real <$> checked x (MathLibrary.acos x)
  | arctan => .real <$> checked x (MathLibrary.atan x)
  | ceil => rounded Rat.ceil x
  | floor => rounded Rat.floor x
  | max | min | log => .ok (.real x)

/-- The value of a function at its arguments.  A function of one argument looks at the first and a
logarithm at the first two, whatever comes after them. -/
def apply [MathLibrary] (f : MathFunction) (args : List Float) : Except MathFault MathValue :=
  match f with
  | max => .real <$> best max (fun x kept => kept < x) args
  | min => .real <$> best min (fun x kept => x < kept) args
  | log =>
    match args with
    | base :: x :: _ => .real <$> logarithmInBase base x
    | _ => .error .missingArgument
  | _ =>
    match args with
    | x :: _ => f.applyOne x
    | [] => .error .missingArgument

end MathFunction

namespace Symbol

/-- Whether the arguments lie in the domain of a symbol; a constant has no restriction. -/
def domain : Symbol → List Float → Bool
  | constant _, _ => true
  | function f, args => f.domain args

/-- The value of a symbol at its arguments. -/
def apply [MathLibrary] : Symbol → List Float → Except MathFault MathValue
  | constant c, _ => .ok (.real c.value)
  | function f, args => f.apply args

end Symbol

end Reckoner
