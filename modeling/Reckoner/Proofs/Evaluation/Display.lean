import Mathlib
import Reckoner.Proofs.Evaluation.Congruence
import Reckoner.Proofs.Report.Growth

/-!
# Limits of the display

The limits of the summary and of the trace only say how much of a run is shown.  Runs whose limits
differ in nothing else are alike (`Report.Alike`): they have the same value, problems and dice,
and record as many steps.  If only the limit of the trace differs, their summaries are the same,
and both traces are beginnings of one trace (`Report.CutFromOne`).
-/

namespace Reckoner

/-! ## Reports -/

namespace Report

/-- Two reports that may show different things, but say the same. -/
structure Alike (r q : Report) : Prop where
  /-- The problems are the same. -/
  problems : r.problems = q.problems
  /-- Both say that there is a problem, or none does. -/
  failed : r.failed = q.failed
  /-- Both ask for the trace, or none does. -/
  verbose : r.verbose = q.verbose
  /-- The dice are the same. -/
  thrown : r.thrown = q.thrown
  /-- As many steps are recorded, together with those that are left out. -/
  recorded : r.steps.length + r.dropped = q.steps.length + q.dropped

variable {r q : Report} {limits limits' : Limits}

theorem Alike.refl (r : Report) : r.Alike r := ⟨rfl, rfl, rfl, rfl, rfl⟩

theorem Alike.addStep (h : r.Alike q) (e e' : Step) :
    (r.addStep limits e).Alike (q.addStep limits' e') := by
  have hrecorded : (r.addStep limits e).recorded = (q.addStep limits' e').recorded := by
    rw [recorded_addStep, recorded_addStep]
    exact congrArg (· + 1) h.recorded
  rw [addStep_eq limits r, addStep_eq limits' q]
  exact ⟨h.problems, h.failed, h.verbose, h.thrown, hrecorded⟩

theorem Alike.addProblem (h : r.Alike q) (p : Problem) :
    (r.addProblem p).Alike (q.addProblem p) where
  problems := congrArg (· ++ [p]) h.problems
  failed := rfl
  verbose := congrArg (· || p.showsTrace) h.verbose
  thrown := h.thrown
  recorded := h.recorded

theorem Alike.addThrow (h : r.Alike q) (faces : Int) (values : List Int) :
    (r.addThrow faces values).Alike (q.addThrow faces values) :=
  ⟨h.problems, h.failed, h.verbose, congrArg (· ++ [Throw.mk faces values]) h.thrown,
    h.recorded⟩

/-- Summaries do not matter. -/
theorem Alike.withSummary (h : r.Alike q) (summary summary' : Report) :
    (r.withSummary summary).Alike (q.withSummary summary') :=
  ⟨h.problems, h.failed, h.verbose, h.thrown, h.recorded⟩

end Report

/-- Two sessions with the same dice left and with reports that say the same. -/
structure Session.Alike (s t : Session) : Prop where
  /-- The dice that are left are the same. -/
  dice : s.dice = t.dice
  /-- The reports say the same. -/
  report : s.report.Alike t.report

theorem Session.Alike.afterRoll {s t : Session} (h : s.Alike t) {limits limits' : Limits}
    (loud negative : Bool) (count : Nat) (faces : Int) (source : Text) :
    Session.Alike (Evaluation.afterRoll loud negative count faces source limits s)
      (Evaluation.afterRoll loud negative count faces source limits' t) := by
  obtain ⟨summary, shown, more, hs⟩ :=
    Evaluation.exists_afterRoll loud negative count faces source limits s
  obtain ⟨summary', shown', more', ht⟩ :=
    Evaluation.exists_afterRoll loud negative count faces source limits' t
  rw [hs, ht, ← h.dice]
  exact ⟨rfl, ((h.report.addThrow faces _).withSummary _ _).addStep _ _⟩

/-! ## Traces of different lengths -/

namespace Report

/-- Two reports with the same summary, where the shorter trace begins the longer one. -/
structure Overlap (r q : Report) : Prop where
  /-- The summaries are the same. -/
  rolls : r.rolls = q.rolls
  /-- One trace begins the other. -/
  steps : r.steps <+: q.steps ∨ q.steps <+: r.steps

/-- Two reports that say the same and have the same summary, and whose traces are cut from one. -/
structure CutFromOne (limits limits' : Limits) (r q : Report) : Prop extends r.Alike q where
  /-- The summaries are the same. -/
  rolls : r.rolls = q.rolls
  /-- As many dice operators were to be listed. -/
  listings : r.listings = q.listings
  /-- There is a trace that both traces are the beginnings of, as far as their limits allow. -/
  trace : ∃ full : List Step, r.steps = full.take limits.steps.toNat ∧
    q.steps = full.take limits'.steps.toNat

variable {r q : Report} {limits limits' : Limits}

theorem CutFromOne.refl_empty (limits limits' : Limits) : CutFromOne limits limits' {} {} :=
  ⟨.refl {}, rfl, rfl, [], by simp, by simp⟩

theorem CutFromOne.overlap (h : CutFromOne limits limits' r q) : r.Overlap q where
  rolls := h.rolls
  steps := by
    obtain ⟨full, hr, hq⟩ := h.trace
    rw [hr, hq]
    exact (le_total limits.steps.toNat limits'.steps.toNat).imp List.take_prefix_take_left
      List.take_prefix_take_left

/-- A trace that is cut stays so when a step is added, which it may not show. -/
theorem steps_addStep_of_eq_take {full : List Step} (h : r.steps = full.take limits.steps.toNat)
    (e : Step) : (r.addStep limits e).steps = (full ++ [e]).take limits.steps.toNat := by
  have hlength : r.steps.length = min limits.steps.toNat full.length := by rw [h, List.length_take]
  unfold addStep
  split
  · rename_i hfull
    rw [List.take_append_of_le_length (by omega), ← h]
  · rename_i hroom
    -- A trace that has room was never cut, so it is still the whole one.
    rw [List.take_of_length_le (by rw [List.length_append, List.length_singleton]; omega), h,
      List.take_of_length_le (by omega)]

theorem CutFromOne.addStep (h : CutFromOne limits limits' r q) (e : Step) :
    CutFromOne limits limits' (r.addStep limits e) (q.addStep limits' e) where
  toAlike := h.toAlike.addStep e e
  rolls := by
    rw [addStep_eq limits r, addStep_eq limits' q]
    exact h.rolls
  listings := by
    rw [addStep_eq limits r, addStep_eq limits' q]
    exact h.listings
  trace := by
    obtain ⟨full, hr, hq⟩ := h.trace
    exact ⟨full ++ [e], steps_addStep_of_eq_take hr e, steps_addStep_of_eq_take hq e⟩

theorem CutFromOne.addProblem (h : CutFromOne limits limits' r q) (p : Problem) :
    CutFromOne limits limits' (r.addProblem p) (q.addProblem p) :=
  ⟨h.toAlike.addProblem p, h.rolls, h.listings, h.trace⟩

theorem CutFromOne.addThrow (h : CutFromOne limits limits' r q) (faces : Int) (values : List Int) :
    CutFromOne limits limits' (r.addThrow faces values) (q.addThrow faces values) :=
  ⟨h.toAlike.addThrow faces values, h.rolls, h.listings, h.trace⟩

/-- The same dice listed in the same summaries leave them the same. -/
theorem CutFromOne.listRolls {steps : Int}
    (h : CutFromOne limits { limits with steps := steps } r q) (faces : Int) (shown : List Int)
    (more : Bool) :
    CutFromOne limits { limits with steps := steps } (Dice.listRolls limits faces shown more r)
      (Dice.listRolls { limits with steps := steps } faces shown more q) := by
  have hlimits : Dice.listRolls { limits with steps := steps } faces shown more q =
      Dice.listRolls limits faces shown more q := rfl
  rw [hlimits, Dice.listRolls_eq h.rolls h.listings, @Dice.listRolls_eq q q rfl rfl]
  exact ⟨h.toAlike.withSummary _ _, rfl, rfl, h.trace⟩

end Report

/-- Two sessions with the same dice left and with reports whose traces are cut from one. -/
structure Session.CutFromOne (limits limits' : Limits) (s t : Session) : Prop where
  /-- The dice that are left are the same. -/
  dice : s.dice = t.dice
  /-- The reports say the same, and their traces are cut from one. -/
  report : s.report.CutFromOne limits limits' t.report

theorem Session.CutFromOne.afterRoll {s t : Session} {limits : Limits} {steps : Int}
    (h : s.CutFromOne limits { limits with steps := steps } t) (loud negative : Bool) (count : Nat)
    (faces : Int) (source : Text) :
    Session.CutFromOne limits { limits with steps := steps }
      (Evaluation.afterRoll loud negative count faces source limits s)
      (Evaluation.afterRoll loud negative count faces source { limits with steps := steps } t) := by
  have hthrow := h.report.addThrow faces (s.dice.throw count faces).1
  unfold Evaluation.afterRoll
  rw [← h.dice]
  refine ⟨rfl, Report.CutFromOne.addStep ?_ _⟩
  cases loud with
  | false => exact hthrow
  | true => exact hthrow.listRolls _ _ _

/-! ## Runs under different limits -/

namespace TextCoupling

open Evaluation

variable [MathLibrary] (limits limits' : Limits) (rel : Session → Session → Prop)

/-- The coupling of the runs of one text, whose sessions a relation keeps alike. -/
def ofLimits (hdice : limits.dice = limits'.dice)
    (hstep : ∀ {s t}, rel s t → ∀ e, rel (s.addStep limits e) (t.addStep limits' e))
    (hproblem : ∀ {s t}, rel s t → ∀ p, rel (s.addProblem p) (t.addProblem p))
    (hleft : ∀ {s t}, rel s t → s.dice = t.dice)
    (hroll : ∀ {s t}, rel s t →
      ∀ (loud negative : Bool) (count : Nat) (faces : Int) (source : Text),
      rel (afterRoll loud negative count faces source limits s)
        (afterRoll loud negative count faces source limits' t)) : TextCoupling where
  limits₁ := limits
  limits₂ := limits'
  rel := rel
  stop _ := rel
  step := Eq
  problem := Eq
  dice _ := True
  step_refl _ := rfl
  problem_refl _ _ := rfl
  rel_step := by
    rintro s t e _ h rfl
    exact hstep h e
  rel_problem := by
    rintro s t p _ h rfl
    exact hproblem h p
  rel_roll := by
    intro loud _ count faces _ _
    exact coupled_roll_always hdice hleft hstep (fun h p _ => hproblem h p) fun h => hroll h loud
  stop_tooDeep h := h
  stop_fault h _ _ _ _ := h
  rel_of_tooDeep h := h

/-- Runs whose limits differ in the display only. -/
def alike (hdice : limits.dice = limits'.dice) : TextCoupling :=
  ofLimits limits limits' Session.Alike hdice (fun h e => ⟨h.dice, h.report.addStep e e⟩)
    (fun h p => ⟨h.dice, h.report.addProblem p⟩) (fun h => h.dice) (fun h => h.afterRoll)

/-- Runs whose limits differ in the length of the trace only. -/
def cutFromOne (steps : Int) : TextCoupling :=
  ofLimits limits { limits with steps := steps }
    (Session.CutFromOne limits { limits with steps := steps }) rfl
    (fun h e => ⟨h.dice, h.report.addStep e⟩) (fun h p => ⟨h.dice, h.report.addProblem p⟩)
    (fun h => h.dice) (fun h => h.afterRoll)

end TextCoupling

namespace Evaluation

variable [MathLibrary] [Stack]

/-- What is shown of a run has no influence on it.  Under limits that differ in the summary and in
the trace, an expression has the same value or stops for the same cause, with the same problems,
the same dice and as many recorded steps.  If only the length of the trace differs, the summaries
are the same, and one trace is a beginning of the other. -/
theorem evaluateExpression_display (limits : Limits) (dice : DiceSource) (e : Text) :
    (∀ listedDice listedChars steps : Int,
      Agree (fun x y s t => x = y ∧ s.Alike t) (fun _ s t => s.Alike t)
        ((evaluateExpression e).runOn limits ⟨{}, dice⟩)
        ((evaluateExpression e).runOn
          { limits with listedDice := listedDice, listedChars := listedChars, steps := steps }
          ⟨{}, dice⟩)) ∧
      ∀ steps : Int,
        Agree (fun _ _ s t => s.report.Overlap t.report) (fun _ s t => s.report.Overlap t.report)
          ((evaluateExpression e).runOn limits ⟨{}, dice⟩)
          ((evaluateExpression e).runOn { limits with steps := steps } ⟨{}, dice⟩) := by
  have hdice : ∀ t : Text, t.DiceIn fun _ => True := fun _ _ _ _ _ _ => trivial
  constructor
  · intro listedDice listedChars steps
    have h := TextCoupling.coupled_evaluateExpression_self (c := TextCoupling.alike limits
      { limits with listedDice := listedDice, listedChars := listedChars, steps := steps } rfl)
      (hdice (normalize e)) ⟨{}, dice⟩ ⟨{}, dice⟩ ⟨rfl, .refl {}⟩
    exact h.mono (fun _ _ _ _ hpost => ⟨hpost.1, hpost.2.2⟩) fun _ _ _ hstop => hstop.2
  · intro steps
    have h := TextCoupling.coupled_evaluateExpression_self
      (c := TextCoupling.cutFromOne limits steps) (hdice (normalize e)) ⟨{}, dice⟩ ⟨{}, dice⟩
      ⟨rfl, Report.CutFromOne.refl_empty _ _⟩
    exact h.mono (fun _ _ _ _ hpost => hpost.2.2.report.overlap) fun _ _ _ hstop =>
      hstop.2.report.overlap

end Evaluation

end Reckoner
