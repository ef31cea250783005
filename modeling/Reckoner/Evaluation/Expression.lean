import Reckoner.Evaluation.Group
import Reckoner.Text.Blank

/-!
# The value of an expression

The whole evaluation of an expression as it is typed: blanks count for nothing, `**` is another
spelling of `^`, groups are replaced, and the text that is left is evaluated.
-/

namespace Reckoner

/-- The text with `^` for every `**`. -/
def caretForDoubleStar : Text → Text
  | '*' :: '*' :: rest => '^' :: caretForDoubleStar rest
  | c :: rest => c :: caretForDoubleStar rest
  | [] => []

/-- The text of an expression without blanks and second spellings. -/
def normalize (expression : Text) : Text := caretForDoubleStar expression.removeBlanks

namespace Evaluation

section

variable (replace : Group → Evaluation Text) (value : Text → Evaluation Float)

/-- The value of a text after normalization; `replace` replaces its groups, and `value` evaluates
what is left. -/
def evaluateNormalizedBy (t : Text) : Evaluation Float := do
  match ← replaceGroupsBy replace [] t with
  | none => return failedValue
  | some flat =>
    checkExponents flat
    value flat

/-- The value of an expression.  When it is nested too deep, this is reported after everything
that was reported before. -/
def evaluateExpressionBy (expression : Text) : Evaluation Float :=
  tryCatch (evaluateNormalizedBy replace value (normalize expression)) fun
    | .tooDeep => fail .tooDeep
    | halt => throw halt

end

variable [MathLibrary] [Stack]

/-- The value of a text after normalization. -/
def evaluateNormalized (t : Text) : Evaluation Float :=
  evaluateNormalizedBy (replacement (evaluateFlat 1)) (evaluateFlat 1) t

theorem evaluateNormalized_def (t : Text) :
    evaluateNormalized t =
      (do
        match ← resolve t with
        | none => return failedValue
        | some flat =>
          checkExponents flat
          evaluateFlat 1 flat) := rfl

/-- The value of an expression. -/
def evaluateExpression (expression : Text) : Evaluation Float :=
  evaluateExpressionBy (replacement (evaluateFlat 1)) (evaluateFlat 1) expression

theorem evaluateExpression_def (expression : Text) :
    evaluateExpression expression =
      tryCatch (evaluateNormalized (normalize expression)) (fun
        | .tooDeep => fail .tooDeep
        | halt => throw halt) := rfl

end Evaluation

/-- The value of an expression and the report about it. -/
structure Outcome where
  /-- The value, which is only to be trusted if the report has no problem. -/
  value : Float
  /-- The report. -/
  report : Report
  deriving DecidableEq

/-- Evaluates an expression under limits with a source of dice. -/
def evaluate [MathLibrary] [Stack] (limits : Limits) (dice : DiceSource) (expression : Text) :
    Except Halt Outcome :=
  match (Evaluation.evaluateExpression expression).runOn limits ⟨{}, dice⟩ with
  | .ok value session => .ok ⟨value, session.report⟩
  | .error halt _ => .error halt

end Reckoner
