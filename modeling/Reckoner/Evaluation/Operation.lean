import Reckoner.Evaluation.Group

/-!
# Operations on a session

Everything that can be done to a session, one operation after the other.  An operation that stops
leaves the session as far as it came, and the next one goes on from there.  The level of a text that
runs out of room may have done a part of its work by then (`Remnant`).
-/

namespace Reckoner

/-- Something that is done to a session. -/
inductive Operation where
  /-- Reports a problem in words, which may ask for the trace. -/
  | report (message : String) (showTrace : Bool)
  /-- Adds a step to the trace. -/
  | note (message : String) (source : Text)
  /-- Begins the line of a loud roll. -/
  | beginListing (faces : Int)
  /-- Adds a roll to the line. -/
  | listRoll (value : Int)
  /-- Ends the line. -/
  | endListing (more : Bool)
  /-- Rolls dice. -/
  | roll (loud : Bool) (count faces : Float)
  /-- Takes a factorial. -/
  | factorial (operand : Float)
  /-- Evaluates a text. -/
  | evaluate (neutral : Float) (text : Text)
  /-- Replaces the groups of a text. -/
  | resolve (text : Text)
  /-- Replaces one group of a text. -/
  | replaceGroup (group : Group)
  /-- Replaces what stands between two positions of a text as a group. -/
  | replaceSpan (span : Span)
  /-- Reports an unfinished power of ten. -/
  | checkExponents (text : Text)
  /-- Asks for the texts of the report. -/
  | texts

/-- What an operation gives back. -/
inductive Answer where
  /-- Nothing. -/
  | done
  /-- A number. -/
  | number (x : Float)
  /-- A text, unless there is none. -/
  | text (t : Option Text)
  /-- The wording of the problems, the trace, and twice the trace if a problem asks for it. -/
  | texts (problems trace askedTrace : String)
  deriving DecidableEq

namespace Evaluation

/-- Begins the line of a loud roll.  The roll counts also if its faces cannot be written. -/
def beginListing (faces : Int) : Evaluation Unit := do
  let limits ← read
  let listings := (← get).report.listings + 1
  if limits.listedDice < listings || Text.isWritable faces then
    modifyReport (·.beginListing limits faces)
  else
    modifyReport fun r => { r with listings := listings }
    throw .tooManyDigits

/-- Adds a roll to the line. -/
def listRoll (value : Int) : Evaluation Unit := do
  let limits ← read
  if (← get).report.unlisted limits || Text.isWritable value then
    modifyReport (·.listRoll limits value)
  else throw .tooManyDigits

/-- Ends the line. -/
def endListing (more : Bool) : Evaluation Unit := do
  let limits ← read
  modifyReport (·.endListing limits more)

end Evaluation

/-- Carries out an operation. -/
def Operation.run [MathLibrary] [Stack] : Operation → Evaluation Answer
  | report message showTrace => .number <$> Evaluation.fail (.stated message showTrace)
  | note message source => do
    Evaluation.trace (.stated message) source
    return .done
  | beginListing faces => do
    Evaluation.beginListing faces
    return .done
  | listRoll value => do
    Evaluation.listRoll value
    return .done
  | endListing more => do
    Evaluation.endListing more
    return .done
  | roll loud count faces => .number <$> Dice.roll loud count faces
  | factorial operand => .number <$> Reckoner.factorial operand
  | evaluate neutral text => .number <$> Evaluation.evaluateText neutral text
  | resolve text => .text <$> Evaluation.resolve text
  | replaceGroup group => (.text ∘ some) <$> Evaluation.replaceGroup group
  | replaceSpan span => .text <$> Evaluation.replaceSpan span
  | checkExponents text => do
    Evaluation.checkExponents text
    return .done
  | texts => do
    let report := (← get).report
    return .texts report.problemText report.traceText report.askedTrace

/-- What the level that runs out of room has done before, which is any part of what a level does: it
may have asked for the trace of a problem that is not reported, or have begun a line of the summary
and not ended it. -/
structure Remnant where
  /-- The problems that it has reported. -/
  problems : List Problem := []
  /-- The steps that it has recorded. -/
  steps : List Step := []
  /-- Whether it has asked for the trace. -/
  asksTrace : Bool := false
  /-- What has become of the summary. -/
  rolls : String → String := id
  /-- What has become of the number of dice operators that were to be listed. -/
  listings : Nat → Nat := id
  /-- The dice that it has thrown. -/
  thrown : List Throw := []
  /-- What has become of the source of dice. -/
  dice : DiceSource → DiceSource := id

namespace Session

/-- The session with what the last level has done. -/
def leave (limits : Limits) (s : Session) (done : Remnant) : Session :=
  let failed := done.problems.foldl Report.addProblem s.report
  let report := done.steps.foldl (Report.addStep limits) failed
  { report :=
      { report with
        verbose := report.verbose || done.asksTrace
        rolls := done.rolls report.rolls
        listings := done.listings report.listings
        thrown := report.thrown ++ done.thrown }
    dice := done.dice s.dice }

/-- Carries out one operation; `remnant` tells what the last level has done if the operation runs
out of room. -/
def perform [MathLibrary] [Stack] (limits : Limits) (remnant : Operation → Session → Remnant)
    (s : Session) (op : Operation) : Except Halt Answer × Session :=
  match op.run.runOn limits s with
  | .ok answer s => (.ok answer, s)
  | .error .tooDeep s => (.error .tooDeep, s.leave limits (remnant op s))
  | .error halt s => (.error halt, s)

/-- Carries out operations one after the other and tells after each what it gave back and what the
report was then. -/
def performAll [MathLibrary] [Stack] (limits : Limits) (remnant : Operation → Session → Remnant)
    (s : Session) : List Operation → List (Except Halt Answer × Report)
  | [] => []
  | op :: rest =>
    let (answer, s) := s.perform limits remnant op
    (answer, s.report) :: performAll limits remnant s rest

end Session

end Reckoner
