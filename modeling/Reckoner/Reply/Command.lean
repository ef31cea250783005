import Reckoner.Log.Record
import Reckoner.Reply.Help
import Reckoner.Reply.Result
import Reckoner.Text.Lowercase

/-!
# The calculator commands

Two commands evaluate an expression, one of them with every step.  A blank expression and the word
`help` ask for the help instead.
-/

namespace Reckoner

/-- The logger of the calculator, and the name of its part of the bot. -/
def calculatorName : String := "Math"

/-- The record that tells that the calculator is ready. -/
def calculatorReady : LogRecord :=
  ⟨.info, s!"Cog '{calculatorName}' initialized.", calculatorName⟩

/-- What a command sends and logs. -/
structure Reply where
  /-- The card. -/
  embed : Embed
  /-- The log. -/
  log : List LogRecord
  deriving DecidableEq

/-- Whether an expression asks for the help. -/
def asksForHelp (expression : Text) : Bool :=
  expression.trim.isEmpty || expression.trim.lowercase == "help".toList

/-- The record about an evaluated expression. -/
def usageRecord (author expression : String) (outcome : Outcome) : LogRecord :=
  if outcome.report.failed then
    let problems := outcome.report.problemText
    ⟨.warning, s!"Handled error in calculator for query '{expression}': {problems}", calculatorName⟩
  else
    let value := String.ofList (Number.fullText outcome.value)
    ⟨.info, s!"Calculator used by {author}: '{expression}' = {value}", calculatorName⟩

/-- The reply to an expression from an author. -/
def reply [MathLibrary] [Stack] (limits : Limits) (dice : DiceSource) (showSteps : Bool)
    (author expression : String) : Except Halt Reply := do
  if asksForHelp expression.toList then return ⟨helpEmbed, []⟩
  else
    let outcome ← evaluate limits dice expression.toList
    return ⟨resultEmbed expression outcome showSteps, [usageRecord author expression outcome]⟩

end Reckoner
