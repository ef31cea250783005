import Reckoner.Report.Step

/-!
# Reports

The report of an evaluation: its problems, its trace, and a summary of the dice that were rolled
loudly.  Operations only add to a report.  The trace and the summary are cut at the limits; a
problem is never lost.
-/

namespace Reckoner

/-! ## Limits -/

/-- The limits of an evaluation.  A limit of zero or less allows nothing. -/
structure Limits where
  /-- The most dice that one dice operator may roll. -/
  dice : Int := 999999
  /-- The most dice operators whose rolls are listed in the summary. -/
  listedDice : Int := 8
  /-- The number of characters after which the list of the rolls of one operator ends. -/
  listedChars : Int := 80
  /-- The most steps of a trace. -/
  steps : Int := 250
  deriving DecidableEq, Repr

/-! ## Reports -/

/-- Dice that were thrown together. -/
structure Throw where
  /-- How many faces each of them has. -/
  faces : Int
  /-- The faces that they showed, in the order in which they were thrown. -/
  values : List Int
  deriving DecidableEq, Repr

/-- What an evaluation has to say besides its value. -/
structure Report where
  /-- Whether there is a problem, so that the value is not to be trusted. -/
  failed : Bool := false
  /-- Whether a problem asks for the trace to be shown. -/
  verbose : Bool := false
  /-- The problems, the first one first. -/
  problems : List Problem := []
  /-- The steps of the trace that are kept. -/
  steps : List Step := []
  /-- How many steps were left out after that. -/
  dropped : Nat := 0
  /-- The summary of the rolls. -/
  rolls : String := ""
  /-- How many dice operators were to be listed. -/
  listings : Nat := 0
  /-- The dice that were thrown, loudly or not, the first ones first. -/
  thrown : List Throw := []
  deriving DecidableEq

namespace Report

/-- Adds a problem. -/
def addProblem (r : Report) (p : Problem) : Report :=
  { r with failed := true, verbose := r.verbose || p.showsTrace, problems := r.problems ++ [p] }

/-- Adds a step to the trace, or counts it when the trace is full. -/
def addStep (limits : Limits) (r : Report) (s : Step) : Report :=
  if limits.steps ≤ r.steps.length then { r with dropped := r.dropped + 1 }
  else { r with steps := r.steps ++ [s] }

/-- Adds dice that were thrown. -/
def addThrow (r : Report) (faces : Int) (values : List Int) : Report :=
  { r with thrown := r.thrown ++ [⟨faces, values⟩] }

/-- Whether the dice operator at hand is beyond the limit of the summary. -/
def unlisted (limits : Limits) (r : Report) : Bool := limits.listedDice < r.listings

/-- Begins the line of a dice operator.  Three dots stand for all that are beyond the limit. -/
def beginListing (limits : Limits) (r : Report) (faces : Int) : Report :=
  let count := r.listings + 1
  if limits.listedDice < count then
    { r with
      rolls := if count = limits.listedDice + 1 then r.rolls ++ "..." else r.rolls
      listings := count }
  else { r with rolls := r.rolls ++ s!"d{faces}:", listings := count }

/-- Adds a roll to the line of a dice operator. -/
def listRoll (limits : Limits) (r : Report) (value : Int) : Report :=
  if r.unlisted limits then r else { r with rolls := r.rolls ++ s!" {value}," }

/-- The text without its last character. -/
def dropLastChar (s : String) : String := String.ofList s.toList.dropLast

/-- Ends the line of a dice operator: the last comma goes, and three dots stand for the rolls that
are not listed. -/
def endListing (limits : Limits) (r : Report) (more : Bool) : Report :=
  if r.unlisted limits then r
  else { r with rolls := dropLastChar r.rolls ++ (if more then "..." else "") ++ "\n" }

/-! ## Texts -/

/-- The wording of all problems, one on a line. -/
def problemText (r : Report) : String := "\n".intercalate (r.problems.map Problem.message)

/-- The trace, one step on a line, and how many more steps there were. -/
def traceText (r : Report) : String :=
  "\n".intercalate (r.steps.map Step.line ++
    if r.dropped = 0 then [] else [s!" ... ({r.dropped} more steps)"])

/-- The trace if a problem asks for it. -/
def askedTrace (r : Report) : String := if r.verbose then r.traceText else ""

end Report

end Reckoner
