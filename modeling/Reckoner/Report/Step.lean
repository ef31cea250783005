import Reckoner.Report.Problem

/-!
# Steps of a trace

What an evaluation did, step by step, and the wording of each step.  Every step is recorded
together with the text that it was read from.
-/

namespace Reckoner

/-- Something that an evaluation did. -/
inductive Event where
  /-- A parenthesis group became an argument list. -/
  | parameters (content : Text)
  /-- A parenthesis group became a value. -/
  | group (content : Text) (value : Float)
  /-- An operator of arithmetic was applied. -/
  | applied (op : Arithmetic) (a b : Float)
  /-- A factor before a name was read. -/
  | multiplicand (text : Text)
  /-- A constant was looked up. -/
  | constant (c : MathConstant)
  /-- A function was applied. -/
  | function (f : MathFunction) (args : List Float)
  /-- A numeral was read. -/
  | number (x : Float)
  /-- No dice were rolled. -/
  | noDice
  /-- Dice were rolled: the first of their values, whether there are more, and the dice. -/
  | rolled (shown : List Int) (more : Bool) (negative : Bool) (count : Nat) (faces : Int)
  /-- A factorial was taken. -/
  | factorial (operand : Float) (rounded : Int)
  /-- Something stated in words. -/
  | stated (message : String)
  deriving DecidableEq

namespace Event

/-- The wording of an event. -/
def message : Event → String
  | parameters content => s!"Parsing function parameters \"{String.ofList content}\""
  | group content value =>
    s!"Parsing parentheses ({String.ofList content}) into ({shownNumber value})"
  | applied .add a b => s!"Added {shownNumber a} + {shownNumber b}."
  | applied .subtract a b => s!"Subtracted {shownNumber a} - {shownNumber b}."
  | applied .multiply a b => s!"Multiplied {shownNumber a} * {shownNumber b}"
  | applied .divide a b => s!"Divided {shownNumber a} / {shownNumber b}"
  | applied .power a b => s!"Evaluated {shownNumber a} ^ {shownNumber b}"
  | applied .remainder a b =>
    s!"Calculated the remainder of {shownNumber a} % {shownNumber b}"
  | multiplicand text => s!"Parsing function multiplicand \"{String.ofList text}\""
  | constant c => s!"Parsed constant {c.name} = {shownNumber c.value}."
  | function f args => s!"Evaluating {f.name} of [{shownNumbers args}]."
  | number x => s!"Parsed numerical value {shownNumber x}."
  | noDice => "Rolled 0 dice."
  | rolled shown more negative count faces =>
    let listing := ", ".intercalate (shown.map toString)
    let rest := if more then ", ..." else ""
    let sign := if negative then "-" else ""
    s!"Rolled values: {listing}{rest} on {sign}{count}d{faces}."
  | factorial operand rounded =>
    s!"Calculated the factorial of {shownNumber operand}, rounded to {rounded}!"
  | stated message => message

end Event

/-- A step of a trace. -/
structure Step where
  /-- What was done. -/
  event : Event
  /-- The text that it was done to. -/
  source : Text
  deriving DecidableEq

/-- The line of a step in a trace. -/
def Step.line (s : Step) : String :=
  s!" v: {s.event.message} with arg = {String.ofList s.source}"

end Reckoner
