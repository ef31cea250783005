import Reckoner.Dice.Roll
import Reckoner.Evaluation.Factorial
import Reckoner.Expression.Term

/-!
# The value of a term

Operands are evaluated from left to right and before their operator.  A failed part counts as one
and the evaluation goes on, so that one evaluation reports every problem of the text.
-/

namespace Reckoner

namespace Evaluation

/-! ## Operators -/

/-- The power of two numbers. -/
def power [MathLibrary] (source : Text) (a b : Float) : Evaluation Float := do
  if a == 0 && b == 0 then fail .zeroToZero
  else
    let value := MathLibrary.pow a b
    if value.isNaN || value.isInf && a == 0 then fail (.noRealPower a b)
    else if value.isInf then fail (.powerOverflow a b)
    else
      trace (.applied .power a b) source
      return value

/-- An operator of arithmetic applied to two numbers. -/
def arithmetic [MathLibrary] (op : Arithmetic) (source : Text) (a b : Float) :
    Evaluation Float := do
  match op with
  | .add =>
    trace (.applied .add a b) source
    checkFinite (a + b) (.operatorOverflow .add a b)
  | .subtract =>
    trace (.applied .subtract a b) source
    checkFinite (a - b) (.operatorOverflow .subtract a b)
  | .multiply =>
    trace (.applied .multiply a b) source
    checkFinite (a * b) (.operatorOverflow .multiply a b)
  | .divide =>
    if b == 0 then fail .zeroDivisor
    else
      trace (.applied .divide a b) source
      checkFinite (a / b) (.operatorOverflow .divide a b)
  | .power => power source a b
  | .remainder =>
    if b == 0 then fail .zeroRemainderDivisor
    else if !(a.isFinite && b.isFinite) then fail (.noRemainder a b)
    else
      trace (.applied .remainder a b) source
      return Number.remainder a b

/-- A binary operator applied to two numbers. -/
def operator [MathLibrary] (op : Operator) (source : Text) (a b : Float) : Evaluation Float :=
  match op with
  | .arithmetic op => arithmetic op source a b
  | .dice loud => Dice.roll loud a b

/-! ## Literals and functions -/

/-- The value of a literal. -/
def literal (l : Literal) : Evaluation Float := do
  let magnitude := l.numeral.value
  if !magnitude.isFinite then fail (.numeralOverflow l.numeral)
  else
    let value := Number.negateIf l.negative magnitude
    trace (.number value) l.shown
    return value

/-- The factor before a name; one if there is none. -/
def factor (source : Text) : Option Literal → Evaluation Float
  | none => return 1
  | some l => do
    trace (.multiplicand l.text) source
    literal l

/-- A function applied to its arguments, times the factor. -/
def function [MathLibrary] (source : Text) (factor : Float) (f : MathFunction)
    (written : Text) (args : List Float) : Evaluation Float := do
  if !f.bounds.accepts args.length then fail (.argumentCount f args.length written)
  else if !f.domain args then fail (.outsideDomain f args)
  else
    match f.apply args with
    | .error fault =>
      if fault.isReported then fail (.noValue f args fault) else throw (.fault fault)
    | .ok value =>
      trace (.function f args) source
      checkFinite (factor * value.toFloat) (.functionOverflow f args)

/-- The problem of a function without an argument or with an empty one. -/
def emptyCall (f : MathFunction) (written : Text) : Evaluation Float :=
  fail (if written.isEmpty then .missingArgument f else .blankArgument f written)

/-- The problem of a text that cannot be read. -/
def unreadable (t : Text) : Evaluation Float :=
  fail (if t.head? = some '[' then .strayList t else .unreadable t)

end Evaluation

/-! ## Terms -/

namespace Term

mutual
/-- The value of a term; `neutral` is what an absent term counts as. -/
def evaluate [MathLibrary] (neutral : Float) : Term → Evaluation Float
  | absent => return neutral
  | tooDeep => throw .tooDeep
  | binary op source left right => do
    let a ← evaluate op.neutral left
    let b ← evaluate op.neutral right
    Evaluation.operator op source a b
  | factorial operand => do
    Reckoner.factorial (← evaluate 1 operand)
  | constant source factor c tail => do
    let factor ← Evaluation.factor source factor
    Evaluation.trace (.constant c) source
    let rest ← evaluate 1 tail
    Evaluation.checkFinite (factor * c.value * rest) (.constantOverflow source)
  | call source factor f written args => do
    let factor ← Evaluation.factor source factor
    Evaluation.function source factor f written (← evaluateAll args)
  | emptyCall source factor f written => do
    let _ ← Evaluation.factor source factor
    Evaluation.emptyCall f written
  | literal l => Evaluation.literal l
  | unreadable t => Evaluation.unreadable t

/-- The values of the arguments of a function. -/
def evaluateAll [MathLibrary] : List Term → Evaluation (List Float)
  | [] => return []
  | t :: rest => do
    let x ← evaluate 1 t
    return x :: (← evaluateAll rest)
end

end Term

/-- The value of a text without parentheses. -/
def evaluateFlat [MathLibrary] [Stack] (neutral : Float) (t : Text) : Evaluation Float :=
  (Term.ofText t).evaluate neutral

end Reckoner
