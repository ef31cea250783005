import Mathlib
import Reckoner.Proofs.Dice.Roll
import Reckoner.Proofs.Evaluation.Growth
import Reckoner.Proofs.Evaluation.Guarded
import Reckoner.Proofs.Expression.Characters

/-!
# What an evaluation accounts for

An evaluation either reports a problem or has read its whole text, and its steps quote the
characters of the text and the signs that it writes by itself (`Evaluation.Ensures`).  Both are
shown of each operator and function once, and of all terms by induction (`Term.ensures_evaluate`).
-/

namespace Reckoner

/-! ## Sessions -/

/-- What the wording of an event quotes. -/
def Event.quoted : Event → Text
  | parameters content => content
  | group content _ => content
  | multiplicand text => text
  | stated message => message.toList
  | _ => []

/-- Whether a step quotes allowed characters only. -/
def Step.UsesOnly (allowed : Char → Prop) (e : Step) : Prop :=
  e.event.quoted.UsesOnly allowed ∧ e.source.UsesOnly allowed

/-- The second session has all problems of the first one, and its new steps quote allowed characters
only. -/
structure Session.Extends (allowed : Char → Prop) (s t : Session) : Prop where
  problems : s.report.problems <+: t.report.problems
  steps : ∀ e ∈ t.report.steps, e ∈ s.report.steps ∨ e.UsesOnly allowed

namespace Session

variable {allowed : Char → Prop} {limits : Limits} {s t u : Session}

theorem Extends.refl (s : Session) : s.Extends allowed s := ⟨List.prefix_rfl, fun _ => .inl⟩

theorem Extends.trans (h : s.Extends allowed t) (h' : t.Extends allowed u) :
    s.Extends allowed u where
  problems := h.problems.trans h'.problems
  steps e he := (h'.steps e he).elim (h.steps e) .inr

theorem extends_addProblem (s : Session) (p : Problem) : s.Extends allowed (s.addProblem p) :=
  ⟨List.prefix_append _ _, fun _ => .inl⟩

theorem extends_addStep (s : Session) {e : Step} (h : e.UsesOnly allowed) :
    s.Extends allowed (s.addStep limits e) := by
  refine ⟨(problems_addStep limits s e).symm ▸ List.prefix_rfl, fun e' he' => ?_⟩
  unfold addStep Report.addStep at he'
  split at he'
  · exact .inl he'
  · rcases List.mem_append.1 he' with hold | hnew
    · exact .inl hold
    · rw [List.mem_singleton.1 hnew]
      exact .inr h

/-- Dice are recorded with the operator that rolled them. -/
theorem extends_afterRoll (s : Session) (loud negative : Bool) (count : Nat) (faces : Int)
    {source : Text} (h : source.UsesOnly allowed) :
    s.Extends allowed (Evaluation.afterRoll loud negative count faces source limits s) := by
  obtain ⟨summary, shown, more, hafter⟩ :=
    Evaluation.exists_afterRoll loud negative count faces source limits s
  rw [hafter]
  -- the summary has no place among the problems and the steps
  exact .trans (t := ⟨(s.report.addThrow faces _).withSummary summary, _⟩)
    ⟨List.prefix_rfl, fun _ => .inl⟩ (extends_addStep _ ⟨Text.usesOnly_nil, h⟩)

end Session

namespace Evaluation

variable {α β : Type} {limits : Limits} {allowed : Char → Prop} {P : α → Prop} {Q : β → Prop}
  {m : Evaluation α} {f : α → Evaluation β}

/-! ## Evaluations one after the other -/

/-- An evaluation reports a problem, or its value is as asked for; its steps quote allowed
characters only. -/
structure Ensures (limits : Limits) (allowed : Char → Prop) (P : α → Prop) (m : Evaluation α) :
    Prop where
  /-- No problem is lost, and new steps quote allowed characters only. -/
  extends_end : ∀ s : Session, s.Extends allowed (endSession (m.runOn limits s))
  /-- Without a new problem the value is as asked for. -/
  holds : ∀ {s t : Session} {a : α}, m.runOn limits s = .ok a t →
    t.report.problems = s.report.problems → P a

/-- Nothing is asked of the value. -/
abbrev Adds (limits : Limits) (allowed : Char → Prop) (m : Evaluation α) : Prop :=
  Ensures limits allowed (fun _ => True) m

theorem Ensures.extends (h : Ensures limits allowed P m) {s t : Session} {a : α}
    (hrun : m.runOn limits s = .ok a t) : s.Extends allowed t := by
  have hend := h.extends_end s
  rwa [hrun] at hend

theorem ensures_pure {a : α} (h : P a) : Ensures limits allowed P (pure a) :=
  ⟨Session.Extends.refl, fun hrun _ => by cases hrun; exact h⟩

/-- After a problem nothing is asked of the value. -/
theorem ensures_fail {P : Float → Prop} (p : Problem) : Ensures limits allowed P (fail p) := by
  refine ⟨fun s => s.extends_addProblem p, fun {s t x} hrun hsame => ?_⟩
  cases hrun
  have hlength := congrArg List.length hsame
  simp [Report.addProblem] at hlength

theorem ensures_throw (halt : Halt) : Ensures limits allowed P (throw halt : Evaluation α) :=
  ⟨Session.Extends.refl, fun hrun _ => by cases hrun⟩

theorem adds_trace {event : Event} {source : Text} (hevent : event.quoted.UsesOnly allowed)
    (hsource : source.UsesOnly allowed) : Adds limits allowed (trace event source) :=
  ⟨fun s => s.extends_addStep ⟨hevent, hsource⟩, fun _ _ => trivial⟩

/-- Neither evaluation has a problem if both together have none.  The second one begins with a value
that the first one can give. -/
theorem Ensures.bind_of_yields {good : α → Prop} (hm : Ensures limits allowed P m)
    (hgood : Yields good m)
    (hf : ∀ a, good a → Ensures limits allowed (fun b => P a → Q b) (f a)) :
    Ensures limits allowed Q (m >>= f) := by
  constructor
  · intro s
    have hfirst := hm.extends_end s
    rw [runOn_bind]
    cases hrun : m.runOn limits s with
    | error halt t => rwa [hrun] at hfirst
    | ok a t =>
      rw [hrun] at hfirst
      exact hfirst.trans ((hf a (hgood limits s a t hrun)).extends_end t)
  · intro s u b hrun hsame
    rw [runOn_bind] at hrun
    cases hfirst : m.runOn limits s with
    | error halt t =>
      rw [hfirst] at hrun
      cases hrun
    | ok a t =>
      rw [hfirst] at hrun
      have hsecond := hf a (hgood limits s a t hfirst)
      have hbefore := (hm.extends hfirst).problems
      have hafter := (hsecond.extends hrun).problems
      rw [hsame] at hafter
      have hmiddle := hafter.eq_of_length (le_antisymm hafter.length_le hbefore.length_le)
      exact hsecond.holds hrun (hsame.trans hmiddle.symm) (hm.holds hfirst hmiddle)

theorem Ensures.bind (hm : Ensures limits allowed P m)
    (hf : ∀ a, Ensures limits allowed (fun b => P a → Q b) (f a)) :
    Ensures limits allowed Q (m >>= f) :=
  hm.bind_of_yields (fun _ _ _ _ _ => trivial) fun a _ => hf a

theorem Ensures.imp {P' : α → Prop} (hm : Ensures limits allowed P m) (h : ∀ a, P a → P' a) :
    Ensures limits allowed P' m :=
  ⟨hm.extends_end, fun hrun hsame => h _ (hm.holds hrun hsame)⟩

/-- What is known after the first evaluation is known after the second one. -/
theorem Ensures.before {R : Prop} (hm : Ensures limits allowed (fun _ => R) m)
    (hf : ∀ a, Adds limits allowed (f a)) : Ensures limits allowed (fun _ => R) (m >>= f) :=
  hm.bind fun a => (hf a).imp fun _ _ h => h

/-- Nothing is known after the first evaluation. -/
theorem Ensures.after (hm : Adds limits allowed m) (hf : ∀ a, Ensures limits allowed Q (f a)) :
    Ensures limits allowed Q (m >>= f) :=
  hm.bind fun a => (hf a).imp fun _ h _ => h

/-! ## Operators and functions -/

theorem adds_checkFinite (x : Float) (p : Problem) : Adds limits allowed (checkFinite x p) := by
  unfold checkFinite
  split
  · exact ensures_pure trivial
  · exact ensures_fail p

theorem adds_checkExponents (t : Text) : Adds limits allowed (checkExponents t) := by
  unfold checkExponents
  split
  · exact .after (ensures_fail _) fun _ => ensures_pure trivial
  · exact ensures_pure trivial

/-- A result is recorded and then checked. -/
theorem adds_checked {event : Event} {source : Text} (hevent : event.quoted.UsesOnly allowed)
    (hsource : source.UsesOnly allowed) (x : Float) (p : Problem) :
    Adds limits allowed (trace event source >>= fun _ => checkFinite x p) :=
  .after (adds_trace hevent hsource) fun _ => adds_checkFinite x p

/-- A result is recorded. -/
theorem adds_recorded {event : Event} {source : Text} (hevent : event.quoted.UsesOnly allowed)
    (hsource : source.UsesOnly allowed) (x : Float) :
    Adds limits allowed (trace event source >>= fun _ => pure x) :=
  .after (adds_trace hevent hsource) fun _ => ensures_pure trivial

section

variable [MathLibrary] {source : Text} (hsource : source.UsesOnly allowed)
include hsource

theorem adds_power (a b : Float) : Adds limits allowed (power source a b) := by
  unfold power
  simp only
  split_ifs
  · exact ensures_fail _
  · exact ensures_fail _
  · exact ensures_fail _
  · exact adds_recorded Text.usesOnly_nil hsource _

theorem adds_arithmetic (op : Arithmetic) (a b : Float) :
    Adds limits allowed (arithmetic op source a b) := by
  cases op with
  | add => exact adds_checked Text.usesOnly_nil hsource _ _
  | subtract => exact adds_checked Text.usesOnly_nil hsource _ _
  | multiply => exact adds_checked Text.usesOnly_nil hsource _ _
  | divide =>
    unfold arithmetic
    simp only
    split
    · exact ensures_fail _
    · exact adds_checked Text.usesOnly_nil hsource _ _
  | power => exact adds_power hsource a b
  | remainder =>
    unfold arithmetic
    simp only
    split_ifs
    · exact ensures_fail _
    · exact ensures_fail _
    · exact adds_recorded Text.usesOnly_nil hsource _

theorem adds_function (x : Float) (f : MathFunction) (written : Text) (args : List Float) :
    Adds limits allowed (function source x f written args) := by
  unfold function
  split_ifs
  · exact ensures_fail _
  · exact ensures_fail _
  · split
    · split
      · exact ensures_fail _
      · exact ensures_throw _
    · exact adds_checked Text.usesOnly_nil hsource _ _

end

section

variable (hown : Text.AllowsOwn allowed)
include hown

/-- A roll is recorded with its operands, which are finite. -/
theorem adds_roll (loud : Bool) (count faces : Float) :
    Adds limits allowed (Dice.roll loud count faces) := by
  refine ⟨fun s => ?_, fun _ _ => trivial⟩
  rw [Dice.runOn_roll]
  split_ifs with hinfinite
  · exact s.extends_addProblem _
  · cases Dice.runOn_refuse_cases limits s (Number.round count).natAbs limits.dice with
    | inl hrun =>
      rw [hrun]
      exact s.extends_addProblem _
    | inr hrun =>
      rw [hrun]
      exact .refl s
  all_goals
    rw [Bool.not_eq_false, Bool.and_eq_true] at hinfinite
    have hsource : (Dice.sourceText count faces).UsesOnly allowed :=
      Text.usesOnly_append.2 ⟨Text.usesOnly_plainText hown hinfinite.1,
        Text.usesOnly_cons.2 ⟨hown _ (by decide), Text.usesOnly_plainText hown hinfinite.2⟩⟩
  · exact s.extends_addStep ⟨Text.usesOnly_nil, hsource⟩
  · exact s.extends_addProblem _
  · rw [runOn_rollSome]
    split <;> exact s.extends_afterRoll _ _ _ _ hsource

theorem adds_factorial (operand : Float) : Adds limits allowed (Reckoner.factorial operand) := by
  unfold Reckoner.factorial
  split
  · exact ensures_fail _
  · rename_i hfinite
    have hsource : (Number.plainText operand ++ ['!']).UsesOnly allowed :=
      Text.usesOnly_append.2 ⟨Text.usesOnly_plainText hown (by simpa using hfinite),
        Text.usesOnly_cons.2 ⟨hown _ (by decide), Text.usesOnly_nil⟩⟩
    simp only
    split
    · exact ensures_fail _
    · exact adds_recorded Text.usesOnly_nil hsource _

theorem adds_operator [MathLibrary] (op : Operator) {source : Text}
    (hsource : source.UsesOnly allowed) (a b : Float) :
    Adds limits allowed (operator op source a b) := by
  cases op with
  | arithmetic op => exact adds_arithmetic hsource op a b
  | dice loud => exact adds_roll hown loud a b

theorem adds_literal {l : Literal} (h : l.text.UsesOnly allowed) :
    Adds limits allowed (literal l) := by
  unfold literal
  simp only
  split
  · exact ensures_fail _
  · exact adds_recorded Text.usesOnly_nil (Text.usesOnly_shown hown h) _

theorem adds_factor {source : Text} (hsource : source.UsesOnly allowed) {l : Option Literal}
    (h : (Literal.optionText l).UsesOnly allowed) : Adds limits allowed (factor source l) := by
  cases l with
  | none => exact ensures_pure trivial
  | some l => exact .after (adds_trace h hsource) fun _ => adds_literal hown h

end

end Evaluation

/-! ## Terms -/

namespace Term

open Evaluation

variable [MathLibrary] {limits : Limits} {allowed : Char → Prop}

mutual
/-- A term that is evaluated without a problem could be read. -/
theorem ensures_evaluate (hown : Text.AllowsOwn allowed) (neutral : Float) :
    (t : Term) → t.UsesOnly allowed →
      Ensures limits allowed (fun _ => t.IsReadable) (t.evaluate neutral)
  | .absent, _ => ensures_pure trivial
  | .tooDeep, _ => ensures_throw .tooDeep
  | .binary op source left right, ⟨hsource, hleft, hright⟩ => by
    refine (ensures_evaluate hown op.neutral left hleft).bind fun a => ?_
    refine ((ensures_evaluate hown op.neutral right hright).before fun b => ?_).imp
      fun _ hr hl => ⟨hl, hr⟩
    exact adds_operator hown op hsource a b
  | .factorial operand, h =>
    (ensures_evaluate hown 1 operand h).before (adds_factorial hown)
  | .constant source factor c tail, ⟨hsource, hfactor, htail⟩ => by
    refine .after (adds_factor hown hsource hfactor) fun x => ?_
    refine .after (adds_trace Text.usesOnly_nil hsource) fun _ => ?_
    exact (ensures_evaluate hown 1 tail htail).before fun _ => adds_checkFinite _ _
  | .call source factor f written args, ⟨hsource, hfactor, hargs⟩ => by
    refine .after (adds_factor hown hsource hfactor) fun x => ?_
    exact (ensures_evaluateAll hown args hargs).before (adds_function hsource x f written)
  | .emptyCall source factor f written, ⟨hsource, hfactor⟩ =>
    .after (adds_factor hown hsource hfactor) fun _ => ensures_fail _
  | .literal l, h => adds_literal hown h
  | .unreadable t, _ => ensures_fail _

/-- Terms that are evaluated without a problem could be read. -/
theorem ensures_evaluateAll (hown : Text.AllowsOwn allowed) :
    (args : List Term) → AllUseOnly allowed args →
      Ensures limits allowed (fun _ => AllReadable args) (evaluateAll args)
  | [], _ => ensures_pure trivial
  | t :: rest, ⟨ht, hrest⟩ => by
    refine (ensures_evaluate hown 1 t ht).bind fun x => ?_
    exact ((ensures_evaluateAll hown rest hrest).before fun _ => ensures_pure trivial).imp
      fun _ hreadable h => ⟨h, hreadable⟩
end

end Term

end Reckoner
