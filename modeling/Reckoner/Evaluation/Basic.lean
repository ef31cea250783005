import Reckoner.Dice.Source
import Reckoner.Report.Basic

/-!
# Evaluations

An evaluation works under limits on a session: the report so far and the source of dice.  It either
gives a value or stops for one of four causes; in both cases the session tells what happened
before.  A problem does not stop an evaluation: it is added to the report and counts as one.
-/

namespace Reckoner

/-- What an evaluation works on. -/
structure Session where
  /-- The report so far. -/
  report : Report
  /-- The dice that are left to throw. -/
  dice : DiceSource
  deriving DecidableEq

/-- Why an evaluation stops without a value. -/
inductive Halt where
  /-- A level of the text has no room on the stack, and is not begun.  A level may also run out
  after it has begun, anywhere in what it does; what it has done by then is a `Remnant`. -/
  | tooDeep
  /-- The sum of the dice of one operator is too large for a double. -/
  | sumTooLarge
  /-- A whole number that has to be written has too many digits. -/
  | tooManyDigits
  /-- A function has a fault that is not reported. -/
  | fault (cause : MathFault)
  deriving DecidableEq, Repr

/-- A computation under limits that works on a session and may stop. -/
abbrev Evaluation := ReaderT Limits (EStateM Halt Session)

namespace Evaluation

/-- What a failed operation counts as. -/
def failedValue : Float := 1

/-- Changes the report. -/
def modifyReport (change : Report → Report) : Evaluation Unit :=
  modify fun s => { s with report := change s.report }

/-- Adds a problem to the report. -/
def fail (p : Problem) : Evaluation Float := do
  modifyReport (·.addProblem p)
  return failedValue

/-- Adds a step to the trace. -/
def trace (event : Event) (source : Text) : Evaluation Unit := do
  let limits ← read
  modifyReport (·.addStep limits ⟨event, source⟩)

/-- The value if it is a finite number, and a problem otherwise. -/
def checkFinite (x : Float) (otherwise : Problem) : Evaluation Float :=
  if x.isFinite then return x else fail otherwise

/-- Throws dice, which the report remembers. -/
def throwDice (count : Nat) (faces : Int) : Evaluation (List Int) :=
  modifyGet fun s =>
    let (values, dice) := s.dice.throw count faces
    (values, { s with report := s.report.addThrow faces values, dice := dice })

/-- Runs an evaluation under limits on a session. -/
def runOn {α : Type} (evaluation : Evaluation α) (limits : Limits) (session : Session) :
    EStateM.Result Halt Session α :=
  (evaluation.run limits).run session

end Evaluation

end Reckoner
