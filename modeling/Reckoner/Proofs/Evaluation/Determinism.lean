import Mathlib
import Reckoner.Proofs.Evaluation.Escape

/-!
# Expressions without dice

The text that is evaluated is not the text that is typed: values are written into it and it is read
again.  None of that brings a dice operator in, so an expression without dice never reaches its
source of dice, and none of the limits for dice matters.  Two runs under the same limit of steps are
the same run (`Evaluation.evaluateExpression_withoutDice`).
-/

namespace Reckoner

/-- The trace is cut at the limit of steps, whatever the other limits are. -/
theorem Report.addStep_congr {limits limits' : Limits} (h : limits.steps = limits'.steps)
    (r : Report) (e : Step) : r.addStep limits e = r.addStep limits' e := by
  unfold addStep
  rw [h]

/-! ## Sessions without rolls -/

namespace Session

/-- Nothing was taken from a source of dice, and nothing was thrown or listed. -/
structure IsUnrolled (dice : DiceSource) (s : Session) : Prop where
  /-- The source is as it was. -/
  dice : s.dice = dice
  /-- No dice were thrown. -/
  thrown : s.report.thrown = []
  /-- The summary is empty. -/
  rolls : s.report.rolls = ""
  /-- No dice operator was to be listed. -/
  listings : s.report.listings = 0

variable {dice : DiceSource} {s : Session}

theorem isUnrolled_empty (dice : DiceSource) : IsUnrolled dice ⟨{}, dice⟩ := ⟨rfl, rfl, rfl, rfl⟩

theorem IsUnrolled.addStep (h : s.IsUnrolled dice) (limits : Limits) (e : Step) :
    (s.addStep limits e).IsUnrolled dice := by
  unfold Session.addStep
  rw [Report.addStep_eq]
  exact ⟨h.dice, h.thrown, h.rolls, h.listings⟩

theorem IsUnrolled.addProblem (h : s.IsUnrolled dice) (p : Problem) :
    (s.addProblem p).IsUnrolled dice := ⟨h.dice, h.thrown, h.rolls, h.listings⟩

/-- Two sessions report the same, and none of them has rolled any of its dice. -/
structure SameUnrolled (dice dice' : DiceSource) (s t : Session) : Prop where
  /-- The reports are the same. -/
  report : s.report = t.report
  /-- The first one has rolled nothing. -/
  left : s.IsUnrolled dice
  /-- The second one has rolled nothing. -/
  right : t.IsUnrolled dice'

end Session

/-! ## Runs -/

section

variable [MathLibrary] [Stack] {limits limits' : Limits}

/-- Two runs of a text without dice, each with a source of its own. -/
def TextCoupling.undiced (hsteps : limits.steps = limits'.steps) (dice dice' : DiceSource) :
    TextCoupling where
  limits₁ := limits
  limits₂ := limits'
  rel := Session.SameUnrolled dice dice'
  stop _ := Session.SameUnrolled dice dice'
  step := Eq
  problem := Eq
  dice _ := False
  step_refl _ := rfl
  problem_refl _ _ := rfl
  rel_step := by
    rintro s t e _ h rfl
    refine ⟨?_, h.left.addStep limits e, h.right.addStep limits' e⟩
    show s.report.addStep limits e = t.report.addStep limits' e
    rw [h.report, Report.addStep_congr hsteps]
  rel_problem := by
    rintro s t p _ h rfl
    exact ⟨congrArg (·.addProblem p) h.report, h.left.addProblem p, h.right.addProblem p⟩
  rel_roll h := h.elim
  stop_tooDeep h := h
  stop_fault h _ _ _ _ := h
  rel_of_tooDeep h := h

variable {e : Text}

/-- An expression without dice is deterministic.  Two runs of it with the same limit of steps, but
with any two sources of dice and any limits for dice, have the same value and the same report, the
summary is empty, and nothing is taken from either source.  Both runs give their value, provided
that the logarithm is zero only at one. -/
theorem Evaluation.evaluateExpression_withoutDice (hquiet : 'd' ∉ e) (hloud : 'D' ∉ e)
    (hsteps : limits.steps = limits'.steps) (dice dice' : DiceSource) :
    Agree (fun x y s t => x = y ∧ s.SameUnrolled dice dice' t)
        (fun _ s t => s.SameUnrolled dice dice' t)
        ((evaluateExpression e).runOn limits ⟨{}, dice⟩)
        ((evaluateExpression e).runOn limits' ⟨{}, dice'⟩) ∧
      ((∀ x, (MathLibrary.log x == 0) = true → (x == 1) = true) →
        ∃ outcome, evaluate limits dice e = .ok outcome ∧
          evaluate limits' dice' e = .ok outcome) := by
  have hdice : e.DiceIn fun _ => False := Text.diceIn_of_not_mem hquiet hloud
  have hrun := TextCoupling.coupled_evaluateExpression_self (c := .undiced hsteps dice dice')
    (Text.diceIn_normalize hdice) ⟨{}, dice⟩ ⟨{}, dice'⟩
    ⟨rfl, Session.isUnrolled_empty dice, Session.isUnrolled_empty dice'⟩
  have hagree : Agree (fun x y s t => x = y ∧ s.SameUnrolled dice dice' t)
      (fun _ s t => s.SameUnrolled dice dice' t) ((evaluateExpression e).runOn limits ⟨{}, dice⟩)
      ((evaluateExpression e).runOn limits' ⟨{}, dice'⟩) :=
    hrun.mono (fun _ _ _ _ hpost => ⟨hpost.1, hpost.2.2⟩) fun _ _ _ hstop => hstop.2
  refine ⟨hagree, fun hlog => ?_⟩
  rcases hagree.cases with
    ⟨x, y, s, t, hleft, hright, hxy, hst⟩ | ⟨halt, s, t, hleft, -⟩
  · refine ⟨⟨x, s.report⟩, ?_, ?_⟩
    · unfold evaluate
      rw [hleft]
    · unfold evaluate
      rw [hright, hxy, hst.report]
  · -- A run without dice has nothing to stop at.
    have hhalt : evaluate limits dice e = .error halt := by
      unfold evaluate
      rw [hleft]
    exact (evaluate_eq_error hlog hdice hhalt).1.elim

end

/-- Twice the square root of nine, under two sets of limits and with two sources of dice. -/
theorem Evaluation.evaluateExpression_withoutDice_root :
    'd' ∉ ['2', '*', 's', 'q', 'r', 't', '(', '9', ')'] ∧
      'D' ∉ ['2', '*', 's', 'q', 'r', 't', '(', '9', ')'] ∧
      Limits.steps {} = Limits.steps { dice := 0, listedDice := 0, listedChars := 0 } ∧
      ∃ outcome, @evaluate { smallLibrary with log := fun _ => 1 } .standard {} (.ofSeed 1)
            ['2', '*', 's', 'q', 'r', 't', '(', '9', ')'] = .ok outcome ∧
          @evaluate { smallLibrary with log := fun _ => 1 } .standard
            { dice := 0, listedDice := 0, listedChars := 0 } (.ofList [5])
            ['2', '*', 's', 'q', 'r', 't', '(', '9', ')'] = .ok outcome := by
  have hlog : ∀ x : Float, ((1 : Float) == 0) = true → (x == 1) = true := by
    intro x hzero
    exact absurd hzero (by decide)
  exact ⟨by decide, by decide, rfl,
    (@evaluateExpression_withoutDice { smallLibrary with log := fun _ => 1 } .standard {}
      { dice := 0, listedDice := 0, listedChars := 0 } _ (by decide) (by decide) rfl (.ofSeed 1)
      (.ofList [5])).2 hlog⟩

end Reckoner
