import Reckoner.Expression.Numeral
import Reckoner.Expression.Operator
import Reckoner.Symbol.Apply

/-!
# Problems

What can be wrong with an expression, named by its cause, and the wording of each problem.  Some
problems ask for the trace to be shown with them.
-/

namespace Reckoner

/-- The plain text of a number. -/
def shownNumber (x : Float) : String := String.ofList (Number.plainText x)

/-- The plain texts of the arguments of a function. -/
def shownNumbers (args : List Float) : String := "; ".intercalate (args.map shownNumber)

/-- A problem with an expression. -/
inductive Problem where
  /-- A closing parenthesis has no partner. -/
  | unmatchedClosing
  /-- An opening parenthesis has no partner. -/
  | unmatchedOpening
  /-- A power of ten has a sign and no digits. -/
  | unfinishedExponent (text : Text)
  /-- The result of an operator is no finite number. -/
  | operatorOverflow (op : Arithmetic) (a b : Float)
  /-- The product with a constant is no finite number. -/
  | constantOverflow (source : Text)
  /-- The value of a function, or its product with the factor, is no finite number. -/
  | functionOverflow (f : MathFunction) (args : List Float)
  /-- The value of a parenthesis group is no finite number. -/
  | groupOverflow (content : Text)
  /-- A numeral is too large for a double. -/
  | numeralOverflow (n : Numeral)
  /-- The divisor is zero. -/
  | zeroDivisor
  /-- The divisor of a remainder is zero. -/
  | zeroRemainderDivisor
  /-- The remainder does not exist. -/
  | noRemainder (a b : Float)
  /-- Zero is raised to the power of zero. -/
  | zeroToZero
  /-- A power is too large for a double. -/
  | powerOverflow (a b : Float)
  /-- A power is no real number. -/
  | noRealPower (a b : Float)
  /-- Nothing follows the name of a function. -/
  | missingArgument (f : MathFunction)
  /-- An item of an argument list is empty. -/
  | blankArgument (f : MathFunction) (written : Text)
  /-- A function does not take so many arguments. -/
  | argumentCount (f : MathFunction) (count : Nat) (written : Text)
  /-- The arguments lie outside the domain of the function. -/
  | outsideDomain (f : MathFunction) (args : List Float)
  /-- The function has no value at the arguments. -/
  | noValue (f : MathFunction) (args : List Float) (fault : MathFault)
  /-- An argument list follows no function. -/
  | strayList (text : Text)
  /-- A text is neither an operation nor a name nor a numeral. -/
  | unreadable (text : Text)
  /-- The expression is nested beyond the limit. -/
  | tooDeep
  /-- The operands of a dice operator are not finite. -/
  | infiniteDice (count faces : Float)
  /-- More dice are rolled than allowed. -/
  | tooManyDice (count : Nat) (allowed : Int)
  /-- A die has no face. -/
  | facelessDie
  /-- The factorial of something other than a finite number is taken. -/
  | infiniteFactorial (operand : Float)
  /-- A factorial is too large for a double. -/
  | factorialOverflow
  /-- A problem stated in words. -/
  | stated (message : String) (showTrace : Bool)
  deriving DecidableEq

namespace Problem

/-- The end of a message about an infinite result. -/
def notFinite : String := ", the result is not a finite number."

/-- The wording of a problem. -/
def message : Problem → String
  | unmatchedClosing => "Unbalanced or unexpected closing parenthesis found."
  | unmatchedOpening => "Unbalanced or unexpected opening parenthesis found."
  | unfinishedExponent text =>
    s!"Malformed E-notation in \"{String.ofList text}\": " ++
      "the exponent sign must be followed by digits."
  | operatorOverflow op a b =>
    s!"Overflow evaluating {shownNumber a} {op.sign} {shownNumber b}" ++ notFinite
  | constantOverflow source => s!"Overflow evaluating {String.ofList source}" ++ notFinite
  | functionOverflow f args =>
    s!"Overflow evaluating {f.name} of [{shownNumbers args}]" ++ notFinite
  | groupOverflow content => s!"Overflow evaluating ({String.ofList content})" ++ notFinite
  | numeralOverflow n => s!"Overflow parsing numerical value {String.ofList n.text}."
  | zeroDivisor => "Attempt to divide by zero"
  | zeroRemainderDivisor => "Attempt to take the remainder of a division by zero"
  | noRemainder a b => s!"{shownNumber a} % {shownNumber b} has no real value."
  | zeroToZero => "Attempt to evaluate zero to the power of zero."
  | powerOverflow a b => s!"Overflow evaluating {shownNumber a} ^ {shownNumber b}."
  | noRealPower a b => s!"{shownNumber a} ^ {shownNumber b} has no real value."
  | missingArgument f => s!"Missing argument for function {f.name}."
  | blankArgument f written =>
    s!"Empty argument in the argument list of function {f.name}, " ++
      s!"found \"{String.ofList written}\"."
  | argumentCount f count written =>
    s!"Invalid number of arguments for function {f.name}: {f.bounds.describe}, " ++
      s!"found {count} in \"{String.ofList written}\"."
  | outsideDomain f args =>
    s!"Value [{shownNumbers args}] not included in the domain of function \"{f.name}\"."
  | noValue f args fault =>
    s!"Could not evaluate {f.name} of [{shownNumbers args}]: {fault.message}."
  | strayList text =>
    s!"Unexpected argument list \"{String.ofList text}\" with no function to apply it to."
  | unreadable text => s!"Failed to parse string \"{String.ofList text}\"."
  | tooDeep => "Expression is too deeply nested to evaluate."
  | infiniteDice count faces =>
    s!"Dice operands must be finite numbers, found `{shownNumber count}d{shownNumber faces}`."
  | tooManyDice count allowed =>
    s!"Exceeded maximum allowed random operations ({count} > {allowed})"
  | facelessDie => "Attempt to roll a die with less than one face."
  | infiniteFactorial operand => s!"Cannot take the factorial of {shownNumber operand}."
  | factorialOverflow => "Overflow in factorial operation, result of local expression is infinity."
  | stated message _ => message

/-- Whether the trace is shown together with a problem. -/
def showsTrace : Problem → Bool
  | outsideDomain _ _ | unreadable _ | infiniteFactorial _ | factorialOverflow => true
  | stated _ showTrace => showTrace
  | _ => false

end Problem

end Reckoner
