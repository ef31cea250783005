import Mathlib
import Reckoner.Proofs.Dice.Cut
import Reckoner.Proofs.Evaluation.Growth

/-!
# The lines of a summary

An evaluation can be run with another roll in the place of its own
(`Evaluation.evaluateExpressionWith`).  Run with the watched roll, it is the evaluation itself, so
every cut of a run takes what it is expected to take: the comma after the last value of its line,
unless the limit allows no value (`Evaluation.evaluateExpression_cuts`).
-/

namespace Reckoner

/-! ## Evaluations with another roll -/

section

variable (roll : Bool → Float → Float → Evaluation Float) [MathLibrary]

/-- A binary operator applied to two numbers, with the given roll. -/
def Evaluation.operatorWith (op : Operator) (source : Text) (a b : Float) : Evaluation Float :=
  match op with
  | .arithmetic op => arithmetic op source a b
  | .dice loud => roll loud a b

namespace Term

mutual
/-- The value of a term, with the given roll. -/
def evaluateWith (neutral : Float) : Term → Evaluation Float
  | binary op source left right => do
    let a ← evaluateWith op.neutral left
    let b ← evaluateWith op.neutral right
    Evaluation.operatorWith roll op source a b
  | factorial operand => do
    Reckoner.factorial (← evaluateWith 1 operand)
  | constant source factor c tail => do
    let factor ← Evaluation.factor source factor
    Evaluation.trace (.constant c) source
    let rest ← evaluateWith 1 tail
    Evaluation.checkFinite (factor * c.value * rest) (.constantOverflow source)
  | call source factor f written args => do
    let factor ← Evaluation.factor source factor
    Evaluation.function source factor f written (← evaluateAllWith args)
  -- the others have no parts to evaluate
  | t => t.evaluate neutral

/-- The values of the arguments of a function, with the given roll. -/
def evaluateAllWith : List Term → Evaluation (List Float)
  | [] => return []
  | t :: rest => do
    let x ← evaluateWith 1 t
    return x :: (← evaluateAllWith rest)
end

end Term

namespace Evaluation

variable [Stack]

/-- The value of a text without parentheses, with the given roll. -/
def evaluateFlatWith (neutral : Float) (t : Text) : Evaluation Float :=
  (Term.ofText t).evaluateWith roll neutral

/-- The value of an expression, with the given roll. -/
def evaluateExpressionWith (expression : Text) : Evaluation Float :=
  evaluateExpressionBy (replacement (evaluateFlatWith roll 1)) (evaluateFlatWith roll 1) expression

end Evaluation

end

/-! ## The roll itself -/

section

variable [MathLibrary]

namespace Term

mutual
theorem evaluateWith_roll (neutral : Float) :
    (t : Term) → t.evaluateWith Dice.roll neutral = t.evaluate neutral
  | .binary op source left right => by
    rw [evaluateWith, evaluate, evaluateWith_roll op.neutral left,
      evaluateWith_roll op.neutral right]
    cases op <;> rfl
  | .factorial operand => by rw [evaluateWith, evaluate, evaluateWith_roll 1 operand]
  | .constant source factor c tail => by rw [evaluateWith, evaluate, evaluateWith_roll 1 tail]
  | .call source factor f written args => by
    rw [evaluateWith, evaluate, evaluateAllWith_roll args]
  | .absent => rfl
  | .tooDeep => rfl
  | .emptyCall _ _ _ _ => rfl
  | .literal _ => rfl
  | .unreadable _ => rfl

theorem evaluateAllWith_roll : (args : List Term) →
    evaluateAllWith Dice.roll args = evaluateAll args
  | [] => by rw [evaluateAllWith, evaluateAll]
  | t :: rest => by
    rw [evaluateAllWith, evaluateAll, evaluateWith_roll 1 t, evaluateAllWith_roll rest]
end

end Term

namespace Evaluation

variable [Stack]

theorem evaluateFlatWith_roll : evaluateFlatWith Dice.roll = evaluateFlat := by
  funext neutral t
  exact (Term.ofText t).evaluateWith_roll neutral

/-- An evaluation with the roll that it has is the evaluation. -/
theorem evaluateExpressionWith_roll (e : Text) :
    evaluateExpressionWith Dice.roll e = evaluateExpression e := by
  rw [evaluateExpressionWith, evaluateFlatWith_roll, evaluateExpression]

/-! ## The cuts of an expression -/

/-- Every cut of a run takes the character that it is expected to take: the watch never raises its
alarm, whatever the alarm does.  Under a limit that allows some value in a line, it is the comma
after the last value, and the cut leaves the line from its beginning to this value; then the summary
at the end of a run that does not run out of room has the whole line of each of its rolls.  Under a
limit that allows none it is the colon. -/
theorem evaluateExpression_cuts (alarm : Cut → Evaluation Unit) (limits : Limits)
    (dice : DiceSource) (e : Text) :
    evaluateExpressionWith (Dice.rollWatched alarm) e = evaluateExpression e ∧
      (∀ c : Cut, c.IsExpected limits → Report.dropLastChar c.begun =
        if 1 ≤ limits.listedChars then
          c.before ++ c.head ++ " " ++ ", ".intercalate (c.listed.map toString)
        else c.before ++ "d" ++ toString c.faces) ∧
      (0 ≤ limits.listedDice → 1 ≤ limits.listedChars →
        let report := (endSession ((evaluateExpression e).runOn limits ⟨{}, dice⟩)).report
        let rolls := (rolls limits e ⟨{}, dice⟩).filter Dice.Roll.loud
        .tooDeep ∉ report.problems → report.rolls = Dice.summary limits rolls ∧
          ∀ roll ∈ rolls, ∃ rest,
            roll.line limits = "d" ++ toString roll.faces ++ ":" ++ rest) := by
  refine ⟨?_, ?_, ?_⟩
  · rw [Dice.rollWatched_eq, evaluateExpressionWith_roll]
  · intro c hc
    unfold Cut.IsExpected at hc
    split_ifs at hc ⊢
    · exact hc.dropLastChar
    · exact hc.dropLastChar
  · intro hdice hchars report rolls _
    refine ⟨?_, fun roll _ => roll.exists_line_eq limits⟩
    show (endSession ((evaluateExpression e).runOn limits ⟨{}, dice⟩)).report.rolls = _
    have hends := records_evaluateExpression hdice hchars e [] ⟨{}, dice⟩
      (Report.lists_empty hdice)
    cases hrun : (evaluateExpression e).runOn limits ⟨{}, dice⟩ with
    | ok x t =>
      rw [hrun] at hends
      exact hends.2.summary
    | error halt t =>
      rw [hrun] at hends
      exact hends.summary

end Evaluation

end

/-- The line of two dice is cut at the comma after the second one. -/
theorem Evaluation.evaluateExpression_cuts_twoDice :
    let report :=
      (endSession ((evaluateExpression ['2', 'D', '6']).runOn {} ⟨{}, .ofSeed 1⟩)).report
    0 ≤ ({} : Limits).listedDice ∧ 1 ≤ ({} : Limits).listedChars ∧ .tooDeep ∉ report.problems ∧
      report.rolls = "d6: 3, 4\n" := by
  intro report
  have hdice : 0 ≤ ({} : Limits).listedDice := by decide
  have hchars : 1 ≤ ({} : Limits).listedChars := by decide
  obtain ⟨-, -, hsummary⟩ := evaluateExpression_cuts (fun _ => throw .tooDeep) {} (.ofSeed 1)
    ['2', 'D', '6']
  have hroom : .tooDeep ∉ report.problems := by decide +kernel
  exact ⟨hdice, hchars, hroom, (hsummary hdice hchars hroom).1.trans (by decide +kernel)⟩

/-- Under a limit of zero characters, the line of a die has lost its colon. -/
theorem Evaluation.evaluateExpression_cut_colon :
    0 ≤ ({ listedChars := 0 } : Limits).listedChars ∧
      (endSession ((evaluateExpression ['1', 'D', '6']).runOn { listedChars := 0 }
        ⟨{}, .ofSeed 1⟩)).report.rolls = "d6...\n" :=
  ⟨by decide, by decide +kernel⟩

end Reckoner
