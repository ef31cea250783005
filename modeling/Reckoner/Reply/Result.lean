import Reckoner.Evaluation.Expression
import Reckoner.Number.Display
import Reckoner.Reply.Embed

/-!
# The reply to an expression

A green card with the result, and with the rolls and the steps where there are any; or a red card
with the problems, and with the trace if somebody asks for it.
-/

namespace Reckoner

/-- The card of an expression that was evaluated without a problem. -/
def successEmbed (title : String) (outcome : Outcome) (showSteps : Bool) : Embed :=
  let rolls := outcome.report.rolls
  let trace := outcome.report.traceText
  { title := truncate s!"Evaluating: **{title}**." titleLimit
    description := String.ofList (Number.displayText outcome.value)
    colour := .green
    fields :=
      (if rolls.isEmpty then [] else [⟨"Rolls:", truncate rolls fieldLimit, false⟩]) ++
      (if showSteps && !trace.isEmpty then
        [⟨"Steps:", truncate s!"```{trace}```" fieldLimit, false⟩] else []) }

/-- The text of the problems of an expression and of the trace that goes with them. -/
def failureText (report : Report) (showSteps : Bool) : String :=
  let trace := if showSteps then report.traceText else report.askedTrace
  if trace.isEmpty then report.problemText else s!"{report.problemText}\n{trace}"

/-- The card of an expression with problems. -/
def failureEmbed (title : String) (report : Report) (showSteps : Bool) : Embed :=
  { title := truncate s!"ERROR! Received: `{title}`." titleLimit
    description := truncate (failureText report showSteps) descriptionLimit
    colour := .red }

/-- The card of an evaluated expression. -/
def resultEmbed (title : String) (outcome : Outcome) (showSteps : Bool) : Embed :=
  if outcome.report.failed then failureEmbed title outcome.report showSteps
  else successEmbed title outcome showSteps

end Reckoner
