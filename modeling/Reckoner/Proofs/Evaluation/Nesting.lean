import Mathlib
import Reckoner.Proofs.Dice.Roll
import Reckoner.Proofs.Evaluation.Growth
import Reckoner.Proofs.Evaluation.Guarded
import Reckoner.Proofs.Evaluation.Load

/-!
# Expressions that are not nested too deep

An evaluation can be run under another number of levels than its own
(`Evaluation.evaluateExpressionWithin`).  Every text that it reads weighs at most as much as the
load of the whole text, which no replacement of a group makes larger, so two levels for each
character are enough for every expression.  When the levels do run out, this is reported once, after
everything else (`Evaluation.evaluateExpression_levels`).
-/

namespace Reckoner

/-- Whether it is reported that the levels ran out. -/
def Session.RanOut (s : Session) : Prop := .tooDeep ∈ s.report.problems

theorem Session.ranOut_of_addProblem {s : Session} {p : Problem} (hp : p ≠ .tooDeep)
    (h : (s.addProblem p).RanOut) : s.RanOut := by
  rcases List.mem_append.1 h with hs | hnew
  · exact hs
  · exact absurd (List.mem_singleton.1 hnew).symm hp

theorem Session.ranOut_of_problems_eq {s t : Session}
    (h : t.report.problems = s.report.problems) (ht : t.RanOut) : s.RanOut := by
  rwa [RanOut, h] at ht

theorem Session.ranOut_of_addStep {limits : Limits} {s : Session} {e : Step}
    (h : (s.addStep limits e).RanOut) : s.RanOut :=
  ranOut_of_problems_eq (problems_addStep limits s e) h

namespace Evaluation

variable {α β : Type} {deep deep' : Prop} {good : α → Prop} {good' : β → Prop}
  {m : Evaluation α} {f : α → Evaluation β}

/-- Every run ends with a good value or stops, for want of levels only where it is deep.  That the
levels ran out is not reported by the run itself. -/
def Nests (deep : Prop) (good : α → Prop) (m : Evaluation α) : Prop :=
  ∀ (limits : Limits) (s : Session),
    match m.runOn limits s with
    | .ok a t => good a ∧ (t.RanOut → s.RanOut)
    | .error halt t => (halt = .tooDeep → deep) ∧ (t.RanOut → s.RanOut)

theorem nests_pure {a : α} (h : good a) : Nests deep good (pure a) := by
  intro limits s
  exact ⟨h, id⟩

theorem nests_throw {halt : Halt} (h : halt = .tooDeep → deep) :
    Nests deep good (throw halt : Evaluation α) := by
  intro limits s
  exact ⟨h, id⟩

theorem nests_trace (event : Event) (source : Text) :
    Nests deep (fun _ => True) (trace event source) := by
  intro limits s
  exact ⟨trivial, Session.ranOut_of_addStep⟩

theorem nests_fail {good : Float → Prop} {p : Problem} (hp : p ≠ .tooDeep)
    (h : good failedValue) : Nests deep good (fail p) := by
  intro limits s
  exact ⟨h, Session.ranOut_of_addProblem hp⟩

theorem Nests.bind (hm : Nests deep good m) (hf : ∀ a, good a → Nests deep good' (f a)) :
    Nests deep good' (m >>= f) := by
  intro limits s
  have h := hm limits s
  cases hrun : m.runOn limits s with
  | error halt t =>
    rw [hrun] at h
    rw [runOn_bind_of_error hrun]
    exact h
  | ok a t =>
    rw [hrun] at h
    have hrest := hf a h.1 limits t
    rw [runOn_bind_of_ok hrun]
    cases hrun' : (f a).runOn limits t with
    | error halt u =>
      rw [hrun'] at hrest
      exact ⟨hrest.1, fun hu => h.2 (hrest.2 hu)⟩
    | ok b u =>
      rw [hrun'] at hrest
      exact ⟨hrest.1, fun hu => h.2 (hrest.2 hu)⟩

theorem Nests.imp {good' : α → Prop} (hm : Nests deep good m) (hdeep : deep → deep')
    (hgood : ∀ a, good a → good' a) : Nests deep' good' m := by
  intro limits s
  have h := hm limits s
  cases hrun : m.runOn limits s with
  | error halt t =>
    rw [hrun] at h
    exact ⟨fun hhalt => hdeep (h.1 hhalt), h.2⟩
  | ok a t =>
    rw [hrun] at h
    exact ⟨hgood a h.1, h.2⟩

/-- The value may be anything. -/
abbrev NestsAny (deep : Prop) (m : Evaluation α) : Prop := Nests deep (fun _ => True) m

theorem Nests.any (hm : Nests deep good m) : NestsAny deep m := hm.imp id fun _ _ => trivial

theorem nests_trace_bind {event : Event} {source : Text} {m : Evaluation α}
    (h : Nests deep good m) : Nests deep good (trace event source >>= fun _ => m) :=
  (nests_trace event source).bind fun _ _ => h

/-! ## Operators and functions -/

theorem nests_checkFinite (x : Float) {p : Problem} (hp : p ≠ .tooDeep) :
    Nests deep (·.isFinite = true) (checkFinite x p) := by
  unfold checkFinite
  split
  · rename_i hx
    exact nests_pure hx
  · exact nests_fail hp isFinite_failedValue

theorem nestsAny_checkFinite (x : Float) {p : Problem} (hp : p ≠ .tooDeep) :
    NestsAny deep (checkFinite x p) := (nests_checkFinite x hp).any

theorem nestsAny_fail {p : Problem} (hp : p ≠ .tooDeep) : NestsAny deep (fail p) :=
  nests_fail hp trivial

theorem nestsAny_roll (loud : Bool) (count faces : Float) :
    NestsAny deep (Dice.roll loud count faces) := by
  intro limits s
  rw [Dice.runOn_roll]
  split_ifs
  · exact ⟨trivial, Session.ranOut_of_addProblem (by simp)⟩
  · cases Dice.runOn_refuse_cases limits s (Number.round count).natAbs limits.dice with
    | inl hrun =>
      rw [hrun]
      exact ⟨trivial, Session.ranOut_of_addProblem (by simp)⟩
    | inr hrun =>
      rw [hrun]
      exact ⟨by simp, id⟩
  · exact ⟨trivial, Session.ranOut_of_addStep⟩
  · exact ⟨trivial, Session.ranOut_of_addProblem (by simp)⟩
  · rw [runOn_rollSome]
    have hafter := (s.throws_afterRoll loud (Number.round count < 0) (Number.round count).natAbs
      (Number.round faces) (Dice.sourceText count faces) limits).problems
    cases Number.ofInt? _ with
    | none => exact ⟨by simp, Session.ranOut_of_problems_eq hafter⟩
    | some total => exact ⟨trivial, Session.ranOut_of_problems_eq hafter⟩

theorem nestsAny_factorial (x : Float) : NestsAny deep (Reckoner.factorial x) := by
  unfold Reckoner.factorial
  split
  · exact nestsAny_fail (by simp)
  · simp only
    split
    · exact nestsAny_fail (by simp)
    · exact nests_trace_bind (nests_pure trivial)

theorem nestsAny_literal (l : Literal) : NestsAny deep (literal l) := by
  unfold literal
  simp only
  split
  · exact nestsAny_fail (by simp)
  · exact nests_trace_bind (nests_pure trivial)

theorem nestsAny_factor (source : Text) (l : Option Literal) :
    NestsAny deep (factor source l) := by
  cases l with
  | none => exact nests_pure trivial
  | some l => exact nests_trace_bind (nestsAny_literal l)

variable [MathLibrary]

theorem nestsAny_power (source : Text) (a b : Float) : NestsAny deep (power source a b) := by
  unfold power
  simp only
  split_ifs
  · exact nestsAny_fail (by simp)
  · exact nestsAny_fail (by simp)
  · exact nestsAny_fail (by simp)
  · exact nests_trace_bind (nests_pure trivial)

theorem nestsAny_arithmetic (op : Arithmetic) (source : Text) (a b : Float) :
    NestsAny deep (arithmetic op source a b) := by
  have hchecked (event : Event) (x : Float) {p : Problem} (hp : p ≠ .tooDeep) :
      NestsAny deep (trace event source >>= fun _ => checkFinite x p) :=
    nests_trace_bind (nestsAny_checkFinite x hp)
  cases op with
  | add => exact hchecked _ _ (by simp)
  | subtract => exact hchecked _ _ (by simp)
  | multiply => exact hchecked _ _ (by simp)
  | divide =>
    unfold arithmetic
    simp only
    split
    · exact nestsAny_fail (by simp)
    · exact hchecked _ _ (by simp)
  | power => exact nestsAny_power source a b
  | remainder =>
    unfold arithmetic
    simp only
    split_ifs
    · exact nestsAny_fail (by simp)
    · exact nestsAny_fail (by simp)
    · exact nests_trace_bind (nests_pure trivial)

theorem nestsAny_operator (op : Operator) (source : Text) (a b : Float) :
    NestsAny deep (operator op source a b) := by
  cases op with
  | arithmetic op => exact nestsAny_arithmetic op source a b
  | dice loud => exact nestsAny_roll loud a b

theorem nestsAny_function (source : Text) (x : Float) (f : MathFunction) (written : Text)
    (args : List Float) : NestsAny deep (function source x f written args) := by
  unfold function
  split
  · exact nestsAny_fail (by simp)
  · split
    · exact nestsAny_fail (by simp)
    · split
      · split
        · exact nestsAny_fail (by simp)
        · exact nests_throw (by simp)
      · exact nests_trace_bind (nestsAny_checkFinite _ (by simp))

end Evaluation

/-! ## Terms -/

namespace Term

open Evaluation

variable [MathLibrary]

mutual
/-- The levels run out in the evaluation of a term only if they did when it was read. -/
theorem nests_evaluate (neutral : Float) : (t : Term) → NestsAny t.IsDeep (t.evaluate neutral)
  | .absent => nests_pure trivial
  | .tooDeep => nests_throw fun _ => trivial
  | .binary op _ left right =>
    ((nests_evaluate op.neutral left).imp .inl fun _ => id).bind fun a _ =>
      ((nests_evaluate op.neutral right).imp .inr fun _ => id).bind fun b _ =>
        nestsAny_operator op _ a b
  | .factorial operand => (nests_evaluate 1 operand).bind fun x _ => nestsAny_factorial x
  | .constant source factor _ tail =>
    (nestsAny_factor source factor).bind fun _ _ =>
      nests_trace_bind ((nests_evaluate 1 tail).bind fun _ _ =>
        nestsAny_checkFinite _ (by simp))
  | .call source factor f written args =>
    (nestsAny_factor source factor).bind fun x _ =>
      (nests_evaluateAll args).bind fun xs _ => nestsAny_function source x f written xs
  | .emptyCall source factor f written =>
    (nestsAny_factor source factor).bind fun _ _ => nestsAny_fail (by split <;> simp)
  | .literal l => nestsAny_literal l
  | .unreadable t => nestsAny_fail (by split <;> simp)

theorem nests_evaluateAll : (args : List Term) → NestsAny (AnyDeep args) (evaluateAll args)
  | [] => nests_pure trivial
  | t :: rest =>
    ((nests_evaluate 1 t).imp .inl fun _ => id).bind fun _ _ =>
      ((nests_evaluateAll rest).imp .inr fun _ => id).bind fun _ _ => nests_pure trivial
end

end Term

/-! ## Evaluations under another number of levels -/

namespace Evaluation

variable [MathLibrary] [Stack]

/-- The value of a text without parentheses that is read with `room` levels. -/
def evaluateFlatWithin (room : Nat) (t : Text) : Evaluation Float := (Term.read room 0 t).evaluate 1

/-- The value of an expression all of whose texts are read with `room` levels. -/
def evaluateExpressionWithin (room : Nat) (expression : Text) : Evaluation Float :=
  evaluateExpressionBy (replacement (evaluateFlatWithin room)) (evaluateFlatWithin room) expression

theorem evaluateFlatWithin_levels : evaluateFlatWithin Stack.levels = evaluateFlat 1 := rfl

/-- Within the levels that it has, an evaluation is the evaluation. -/
theorem evaluateExpressionWithin_levels (e : Text) :
    evaluateExpressionWithin Stack.levels e = evaluateExpression e := by
  rw [evaluateExpressionWithin, evaluateFlatWithin_levels, evaluateExpression]

/-! ## The levels that an expression needs -/

theorem nestsAny_evaluateFlatWithin (room : Nat) (t : Text) :
    NestsAny (room ≤ t.weight) (evaluateFlatWithin room t) := by
  refine (Term.nests_evaluate 1 (Term.read room 0 t)).imp ?_ fun _ => id
  intro hdeep
  simpa using hdeep.le_weight

omit [MathLibrary] [Stack] in
theorem nestsAny_checkExponents (t : Text) : NestsAny deep (checkExponents t) := by
  unfold checkExponents
  split
  · exact (nestsAny_fail (by simp)).bind fun _ _ => nests_pure trivial
  · exact nests_pure trivial

section

variable {room : Nat} {value : Text → Evaluation Float}
  (hvalue : ∀ t : Text, NestsAny (room ≤ t.weight) (value t))
include hvalue

omit [MathLibrary] [Stack]

theorem nests_replacement (g : Group) :
    Nests (room ≤ g.content.weight) g.Becomes (replacement value g) := by
  unfold replacement replacementIn
  split
  · rename_i hcomma
    exact nests_trace_bind (nests_pure (.inl ⟨hcomma, rfl⟩))
  · rename_i hcomma
    refine (nestsAny_checkExponents g.content).bind fun _ _ => (hvalue g.content).bind fun x _ => ?_
    refine (nests_checkFinite x (by simp)).bind fun y hy => nests_trace_bind (nests_pure ?_)
    exact .inr ⟨Bool.eq_false_iff.2 hcomma, y, hy, rfl⟩

/-- The text that is left when the groups are replaced has no larger load, and each group that is
evaluated on the way weighs no more than that. -/
theorem nests_replaceGroupsBy (before after : Text) :
    Nests (room ≤ Text.load none (before.reverse ++ after))
      (fun flat => ∀ t ∈ flat, Text.load none t ≤ Text.load none (before.reverse ++ after))
      (replaceGroupsBy (replacement value) before after) := by
  induction after generalizing before with
  | nil =>
    rw [replaceGroupsBy]
    split
    · exact (nestsAny_fail (by simp)).bind fun _ _ => nests_pure (by simp)
    · exact nests_pure (by simp)
  | cons c after ih =>
    rw [replaceGroupsBy]
    split
    · rename_i hc
      cases hcut : cutAtOpening [] before with
      | none => exact (nestsAny_fail (by simp)).bind fun _ _ => nests_pure (by simp)
      | some cut =>
        obtain ⟨content, start⟩ := cut
        rw [hc, ← group_text_of_cutAtOpening hcut]
        have hweight := (Group.mk start.reverse content after).weight_content_le
        refine ((nests_replacement hvalue _).imp (fun h => h.trans hweight) fun _ => id).bind ?_
        intro new hnew
        have hload := hnew.load_le
        have hrest : (new.reverse ++ start).reverse ++ after = start.reverse ++ new ++ after := by
          simp
        have hih := ih (new.reverse ++ start)
        rw [hrest] at hih
        exact hih.imp (fun h => h.trans hload) fun flat h t ht => (h t ht).trans hload
    · have hih := ih (c :: before)
      rwa [List.reverse_cons, List.append_assoc, List.singleton_append] at hih

theorem nestsAny_evaluateNormalizedBy (t : Text) :
    NestsAny (room ≤ Text.load none t) (evaluateNormalizedBy (replacement value) value t) := by
  refine (nests_replaceGroupsBy hvalue [] t).bind ?_
  intro flat hflat
  cases flat with
  | none => exact nests_pure trivial
  | some flat =>
    refine (nestsAny_checkExponents flat).bind fun _ _ => (hvalue flat).imp ?_ fun _ => id
    intro hroom
    exact (hroom.trans (Text.weight_le_load flat)).trans (hflat flat rfl)

end

omit [MathLibrary] [Stack] in
theorem length_caretForDoubleStar_le (t : Text) : (caretForDoubleStar t).length ≤ t.length := by
  induction t using caretForDoubleStar.induct with
  | case1 rest ih =>
    rw [caretForDoubleStar]
    simp only [List.length_cons]
    omega
  | case2 c rest hne ih =>
    rw [caretForDoubleStar.eq_2 _ _ hne]
    simpa using ih
  | case3 => exact le_refl _

omit [MathLibrary] [Stack] in
theorem load_normalize_le (e : Text) :
    Text.load none (normalize e) ≤ 2 * e.removeBlanks.length := by
  have hload : Text.load none (normalize e) ≤ 2 * (normalize e).length := Text.load_le _
  have hlength : (normalize e).length ≤ e.removeBlanks.length := length_caretForDoubleStar_le _
  omega

/-- Two levels for each character, and one more, do not run out. -/
theorem not_ranOut_evaluateExpressionWithin {room : Nat} {e : Text}
    (h : 2 * e.removeBlanks.length + 1 ≤ room) (limits : Limits) {s : Session} (hs : ¬ s.RanOut) :
    ¬ (endSession ((evaluateExpressionWithin room e).runOn limits s)).RanOut := by
  have hrun := nestsAny_evaluateNormalizedBy (nestsAny_evaluateFlatWithin room) (normalize e)
    limits s
  unfold evaluateExpressionWithin evaluateExpressionBy
  rw [runOn_tryCatch]
  cases hresult : (evaluateNormalizedBy (replacement (evaluateFlatWithin room))
      (evaluateFlatWithin room) (normalize e)).runOn limits s with
  | ok a t =>
    rw [hresult] at hrun
    exact fun ht => hs (hrun.2 ht)
  | error halt t =>
    rw [hresult] at hrun
    cases halt with
    | tooDeep =>
      have hroom := hrun.1 rfl
      have hload := load_normalize_le e
      omega
    | sumTooLarge | tooManyDigits | fault => exact fun ht => hs (hrun.2 ht)

/-- When the levels run out, the value is one, and this is reported after all that was reported
before. -/
theorem exists_of_ranOut {limits : Limits} {dice : DiceSource} {e : Text} {outcome : Outcome}
    (h : evaluate limits dice e = .ok outcome) (hout : .tooDeep ∈ outcome.report.problems) :
    outcome.value = 1 ∧ ∃ s : Session,
      (evaluateNormalized (normalize e)).runOn limits ⟨{}, dice⟩ = .error .tooDeep s ∧
      .tooDeep ∉ s.report.problems ∧
      outcome.report =
        { s.report with failed := true, problems := s.report.problems ++ [.tooDeep] } := by
  have hrun := nestsAny_evaluateNormalizedBy (nestsAny_evaluateFlatWithin Stack.levels)
    (normalize e) limits ⟨{}, dice⟩
  rw [evaluateFlatWithin_levels, ← evaluateNormalized] at hrun
  have hfresh : ¬ Session.RanOut ⟨{}, dice⟩ := List.not_mem_nil
  obtain ⟨s, hs, hreport⟩ := exists_runOn_of_evaluate h
  rw [← hreport] at hout ⊢
  rcases evaluateExpression_cases limits ⟨{}, dice⟩ e with ⟨y, t, hnormalized, hresult⟩ |
    ⟨t, hnormalized, hresult⟩ | ⟨halt, t, -, hresult⟩
  · cases hresult.symm.trans hs
    rw [hnormalized] at hrun
    exact absurd (hrun.2 hout) hfresh
  · obtain ⟨hvalue, rfl⟩ := EStateM.Result.ok.inj (hresult.symm.trans hs)
    rw [hnormalized] at hrun
    refine ⟨hvalue.symm, t, hnormalized, fun ht => hfresh (hrun.2 ht), ?_⟩
    simp [Session.addProblem, Report.addProblem, Problem.showsTrace]
  · cases hresult.symm.trans hs

/-- No expression needs more than two levels for each of its characters that are not blank, and one
more; so one of at most 330 characters is never nested too deep.  If an expression is, the value is
one, and this is the last problem: everything that was reported before is kept. -/
theorem evaluateExpression_levels (limits : Limits) (dice : DiceSource) (e : Text) :
    (∀ room, 2 * e.removeBlanks.length + 1 ≤ room →
      .tooDeep ∉ (endSession
        ((evaluateExpressionWithin room e).runOn limits ⟨{}, dice⟩)).report.problems) ∧
    evaluateExpressionWithin Stack.levels e = evaluateExpression e ∧
    (e.length ≤ 330 →
      .tooDeep ∉ (endSession ((evaluateExpression e).runOn limits ⟨{}, dice⟩)).report.problems) ∧
    ∀ outcome, evaluate limits dice e = .ok outcome → .tooDeep ∈ outcome.report.problems →
      outcome.value = 1 ∧ ∃ s : Session,
        (evaluateNormalized (normalize e)).runOn limits ⟨{}, dice⟩ = .error .tooDeep s ∧
        .tooDeep ∉ s.report.problems ∧
        outcome.report =
          { s.report with failed := true, problems := s.report.problems ++ [.tooDeep] } := by
  have hfresh : ¬ Session.RanOut ⟨{}, dice⟩ := List.not_mem_nil
  have hwithin (room : Nat) (hroom : 2 * e.removeBlanks.length + 1 ≤ room) :=
    not_ranOut_evaluateExpressionWithin hroom limits hfresh
  refine ⟨hwithin, evaluateExpressionWithin_levels e, ?_, fun _ => exists_of_ranOut⟩
  intro hlength
  have hblanks : e.removeBlanks.length ≤ e.length := List.length_filter_le _ _
  rw [← evaluateExpressionWithin_levels]
  refine hwithin Stack.levels ?_
  have hlevels := Stack.le_levels
  omega

end Evaluation

end Reckoner
