import Mathlib
import Reckoner.Proofs.Evaluation.Invariant

/-!
# Finite numbers only

Every number that an evaluation computes is finite.  To say so of the numbers that it hands to
dice, to factorials and to functions, a guard is put in front of each of them, and behind each
value (`Handover`): it raises an alarm at the first thing that is not as it should be.  The
guarded evaluation is the evaluation itself, whatever the alarm does (`evaluation_isFinite`), so
the alarm is never raised.
-/

namespace Reckoner

/-! ## Guards -/

/-- What an evaluation hands to something else. -/
inductive Handover where
  /-- The value of a text or of a part of it. -/
  | result (x : Float)
  /-- The operands of a roll. -/
  | roll (count faces : Float)
  /-- The operand of a factorial. -/
  | factorial (operand : Float)
  /-- Arguments that are looked up in a domain. -/
  | domain (f : MathFunction) (args : List Float)
  /-- Arguments that a function is applied to. -/
  | apply (f : MathFunction) (args : List Float)
  /-- The text that is written in the place of a group. -/
  | splice (written : Text)

/-- Whether all numbers are finite, and the text is a literal. -/
def Handover.isSound : Handover → Bool
  | result x | factorial x => x.isFinite
  | roll count faces => count.isFinite && faces.isFinite
  | domain _ args | apply _ args => args.all Float.isFinite
  | splice written => (Literal.read? written).isSome

namespace Evaluation

section

variable (alarm : Handover → Evaluation Unit)

/-- Raises the alarm unless everything is as it should be. -/
def guard (h : Handover) : Evaluation Unit := if h.isSound then return () else alarm h

/-- The evaluation with a guard behind it. -/
def guardResult (m : Evaluation Float) : Evaluation Float := do
  let x ← m
  guard alarm (.result x)
  return x

variable [MathLibrary]

/-- A binary operator, with a guard before the dice. -/
def operatorGuarded (op : Operator) (source : Text) (a b : Float) : Evaluation Float := do
  match op with
  | .arithmetic op => arithmetic op source a b
  | .dice loud =>
    guard alarm (.roll a b)
    Dice.roll loud a b

/-- A function, with a guard before its domain and one before its value. -/
def functionGuarded (source : Text) (factor : Float) (f : MathFunction) (written : Text)
    (args : List Float) : Evaluation Float := do
  if !f.bounds.accepts args.length then fail (.argumentCount f args.length written)
  else
    guard alarm (.domain f args)
    if !f.domain args then fail (.outsideDomain f args)
    else
      guard alarm (.apply f args)
      match f.apply args with
      | .error fault =>
        if fault.isReported then fail (.noValue f args fault) else throw (.fault fault)
      | .ok value =>
        trace (.function f args) source
        checkFinite (factor * value.toFloat) (.functionOverflow f args)

end

end Evaluation

namespace Term

open Evaluation

variable (alarm : Handover → Evaluation Unit) [MathLibrary]

mutual
/-- The value of a term, with all guards. -/
def evaluateGuarded (neutral : Float) : Term → Evaluation Float
  | absent => guardResult alarm (return neutral)
  | tooDeep => throw .tooDeep
  | binary op source left right => guardResult alarm do
    let a ← evaluateGuarded op.neutral left
    let b ← evaluateGuarded op.neutral right
    operatorGuarded alarm op source a b
  | factorial operand => guardResult alarm do
    let x ← evaluateGuarded 1 operand
    guard alarm (.factorial x)
    Reckoner.factorial x
  | constant source factor c tail => guardResult alarm do
    let factor ← Evaluation.factor source factor
    trace (.constant c) source
    let rest ← evaluateGuarded 1 tail
    checkFinite (factor * c.value * rest) (.constantOverflow source)
  | call source factor f written args => guardResult alarm do
    let factor ← Evaluation.factor source factor
    functionGuarded alarm source factor f written (← evaluateAllGuarded args)
  | emptyCall source factor f written => guardResult alarm do
    let _ ← Evaluation.factor source factor
    Evaluation.emptyCall f written
  | literal l => guardResult alarm (Evaluation.literal l)
  | unreadable t => guardResult alarm (Evaluation.unreadable t)

/-- The values of the arguments of a function, with all guards. -/
def evaluateAllGuarded : List Term → Evaluation (List Float)
  | [] => return []
  | t :: rest => do
    let x ← evaluateGuarded 1 t
    return x :: (← evaluateAllGuarded rest)
end

end Term

namespace Evaluation

section

variable (alarm : Handover → Evaluation Unit) [MathLibrary] [Stack]

/-- The value of a text without parentheses, with all guards. -/
def evaluateFlatGuarded (neutral : Float) (t : Text) : Evaluation Float :=
  (Term.ofText t).evaluateGuarded alarm neutral

/-- What a group is replaced with, with all guards. -/
def replacementGuarded (g : Group) : Evaluation Text := do
  if ArgumentList.hasComma 0 g.content then
    trace (.parameters g.content) g.text
    return '[' :: ArgumentList.semicolons 0 g.content ++ ']' :: g.starAfter
  else
    checkExponents g.content
    let x ← evaluateFlatGuarded alarm 1 g.content
    let x ← checkFinite x (.groupOverflow g.content)
    trace (.group g.content x) g.text
    guard alarm (.splice (Literal.ofFloat x))
    return g.starBefore ++ Literal.ofFloat x ++ g.starAfter

/-- The value of a text, with or without parentheses, with all guards. -/
def evaluateTextGuarded (neutral : Float) (t : Text) : Evaluation Float :=
  evaluateTextBy (replacementGuarded alarm) (evaluateFlatGuarded alarm) neutral t

/-- The value of an expression, with all guards. -/
def evaluateExpressionGuarded (expression : Text) : Evaluation Float :=
  evaluateExpressionBy (replacementGuarded alarm) (evaluateFlatGuarded alarm 1) expression

end

/-! ## Values -/

section

variable {α β : Type} {good : α → Prop}

/-- Whatever values the evaluation gives, they are good. -/
def Yields (good : α → Prop) (m : Evaluation α) : Prop :=
  ∀ limits s a t, m.runOn limits s = .ok a t → good a

/-- An evaluation goes on with good values only. -/
theorem Yields.bind_congr {m : Evaluation α} {f f' : α → Evaluation β} (h : Yields good m)
    (hf : ∀ a, good a → f a = f' a) : m >>= f = m >>= f' := by
  funext limits s
  show (m >>= f).runOn limits s = (m >>= f').runOn limits s
  rw [runOn_bind, runOn_bind]
  cases hrun : m.runOn limits s with
  | ok a t => simp only [hf a (h limits s a t hrun)]
  | error halt t => rfl

/-- Nothing is asked of a session. -/
def anySession (limits : Limits) : Invariant limits where
  holds _ := True
  addStep _ _ := trivial
  addProblem _ _ _ := trivial
  afterRoll _ _ _ _ _ _ := trivial

theorem yields_of_couples [MathLibrary] {m : Evaluation α}
    (h : ∀ limits, (anySession limits).coupling.Couples good m m) : Yields good m :=
  fun limits _ _ _ hrun => (Invariant.ends_of_couples (h limits) trivial).good hrun

end

/-! ## Guards that do nothing -/

theorem isFinite_one : (1 : Float).isFinite = true := isFinite_failedValue

variable {alarm : Handover → Evaluation Unit}

theorem guard_of_isSound {h : Handover} (hs : h.isSound = true) : guard alarm h = pure () :=
  if_pos hs

theorem guardResult_eq {m : Evaluation Float} (h : Yields (·.isFinite = true) m) :
    guardResult alarm m = m := by
  rw [guardResult, ← bind_pure m, bind_assoc]
  refine h.bind_congr fun x hx => ?_
  rw [pure_bind, guard_of_isSound (h := .result x) hx, pure_bind]

end Evaluation

namespace Evaluation

variable {alarm : Handover → Evaluation Unit} [MathLibrary]

theorem operatorGuarded_eq (op : Operator) (source : Text) {a b : Float} (ha : a.isFinite = true)
    (hb : b.isFinite = true) : operatorGuarded alarm op source a b = operator op source a b := by
  cases op with
  | arithmetic op => rfl
  | dice loud =>
    have hsound : (Handover.roll a b).isSound = true := by rw [Handover.isSound, ha, hb]; rfl
    rw [operatorGuarded, guard_of_isSound hsound, pure_bind]
    rfl

theorem functionGuarded_eq (source : Text) (factor : Float) (f : MathFunction) (written : Text)
    {args : List Float} (h : ∀ x ∈ args, x.isFinite = true) :
    functionGuarded alarm source factor f written args = function source factor f written args := by
  have hargs : args.all Float.isFinite = true := List.all_eq_true.2 h
  rw [functionGuarded, guard_of_isSound (h := .domain f args) hargs,
    guard_of_isSound (h := .apply f args) hargs]
  simp only [pure_bind]
  rfl

end Evaluation

namespace Term

open Evaluation

variable {alarm : Handover → Evaluation Unit} [MathLibrary]

theorem yields_evaluate {neutral : Float} (hneutral : neutral.isFinite = true) (t : Term) :
    Yields (·.isFinite = true) (t.evaluate neutral) :=
  yields_of_couples fun _ => TextCoupling.couples_evaluate hneutral t
    (diceIn_of_forall (fun _ => trivial) t)

theorem yields_evaluateAll (args : List Term) :
    Yields (fun xs => ∀ x ∈ xs, x.isFinite = true) (evaluateAll args) :=
  yields_of_couples fun _ => TextCoupling.couples_evaluateAll args
    (allDiceIn_of_forall (fun _ => trivial) args)

mutual
/-- The guards do nothing while a term is evaluated. -/
theorem evaluateGuarded_eq {neutral : Float} (hneutral : neutral.isFinite = true) :
    (t : Term) → t.evaluateGuarded alarm neutral = t.evaluate neutral
  | .absent => by
    have hyields := yields_evaluate hneutral .absent
    rw [evaluate] at hyields
    rw [evaluateGuarded, evaluate, guardResult_eq hyields]
  | .tooDeep => by rw [evaluateGuarded, evaluate]
  | .binary op source left right => by
    have hoperator : (do
          let a ← left.evaluateGuarded alarm op.neutral
          let b ← right.evaluateGuarded alarm op.neutral
          operatorGuarded alarm op source a b) =
        (binary op source left right).evaluate neutral := by
      rw [evaluate, evaluateGuarded_eq op.isFinite_neutral left,
        evaluateGuarded_eq op.isFinite_neutral right]
      -- From here on both operands are finite, as they are when the operator gets them.
      refine (yields_evaluate op.isFinite_neutral left).bind_congr fun a ha => ?_
      exact (yields_evaluate op.isFinite_neutral right).bind_congr fun b hb =>
        operatorGuarded_eq op source ha hb
    rw [evaluateGuarded, hoperator, guardResult_eq (yields_evaluate hneutral _)]
  | .factorial operand => by
    have hfactorial : (do
          let x ← operand.evaluateGuarded alarm 1
          guard alarm (.factorial x)
          Reckoner.factorial x) = (factorial operand).evaluate neutral := by
      rw [evaluate, evaluateGuarded_eq isFinite_one operand]
      refine (yields_evaluate isFinite_one operand).bind_congr fun x hx => ?_
      rw [guard_of_isSound (h := .factorial x) hx, pure_bind]
    rw [evaluateGuarded, hfactorial, guardResult_eq (yields_evaluate hneutral _)]
  | .constant source factor c tail => by
    have hyields := yields_evaluate hneutral (.constant source factor c tail)
    rw [evaluate] at hyields
    rw [evaluateGuarded, evaluateGuarded_eq isFinite_one tail, guardResult_eq hyields,
      evaluate]
  | .call source factor f written args => by
    have hcall : (do
          let factor ← Evaluation.factor source factor
          functionGuarded alarm source factor f written (← evaluateAllGuarded alarm args)) =
        (call source factor f written args).evaluate neutral := by
      rw [evaluate, evaluateAllGuarded_eq args]
      refine bind_congr fun x => ?_
      exact (yields_evaluateAll args).bind_congr fun xs hxs =>
        functionGuarded_eq source x f written hxs
    rw [evaluateGuarded, hcall, guardResult_eq (yields_evaluate hneutral _)]
  | .emptyCall source factor f written => by
    have hyields := yields_evaluate hneutral (.emptyCall source factor f written)
    rw [evaluate] at hyields
    rw [evaluateGuarded, guardResult_eq hyields, evaluate]
  | .literal l => by
    have hyields := yields_evaluate hneutral (.literal l)
    rw [evaluate] at hyields
    rw [evaluateGuarded, guardResult_eq hyields, evaluate]
  | .unreadable t => by
    have hyields := yields_evaluate hneutral (.unreadable t)
    rw [evaluate] at hyields
    rw [evaluateGuarded, guardResult_eq hyields, evaluate]

/-- The guards do nothing while arguments are evaluated. -/
theorem evaluateAllGuarded_eq : (args : List Term) →
    evaluateAllGuarded alarm args = evaluateAll args
  | [] => by rw [evaluateAllGuarded, evaluateAll]
  | t :: rest => by
    rw [evaluateAllGuarded, evaluateAll, evaluateGuarded_eq isFinite_one t,
      evaluateAllGuarded_eq rest]
end

end Term

namespace Evaluation

/-- What is written in the place of a group is a literal. -/
theorem isSound_splice {x : Float} (h : x.isFinite = true) :
    (Handover.splice (Literal.ofFloat x)).isSound = true := by
  obtain ⟨l, hl, htext, -⟩ := Literal.exists_ofFloat h
  rw [Handover.isSound, ← htext, Literal.read?_text hl]
  rfl

/-- What is no finite number is not written as a literal. -/
example : (Handover.splice "INF".toList).isSound = false ∧
    (Handover.splice "NAN".toList).isSound = false := by decide

variable (alarm : Handover → Evaluation Unit) [MathLibrary] [Stack]

theorem evaluateFlatGuarded_eq {neutral : Float} (hneutral : neutral.isFinite = true) (t : Text) :
    evaluateFlatGuarded alarm neutral t = evaluateFlat neutral t :=
  Term.evaluateGuarded_eq hneutral _

theorem replacementGuarded_eq : replacementGuarded alarm = replacement (evaluateFlat 1) := by
  funext g
  unfold replacementGuarded replacement replacementIn
  split
  · rfl
  · rw [evaluateFlatGuarded_eq alarm isFinite_one]
    refine bind_congr fun _ => ?_
    refine (Term.yields_evaluate isFinite_one _).bind_congr fun x hx => ?_
    have hfinite : checkFinite x (.groupOverflow g.content) = pure x := if_pos hx
    simp only [hfinite, pure_bind, guard_of_isSound (isSound_splice hx)]

theorem evaluateTextGuarded_eq {neutral : Float} (hneutral : neutral.isFinite = true) (t : Text) :
    evaluateTextGuarded alarm neutral t = evaluateText neutral t := by
  rw [evaluateTextGuarded, replacementGuarded_eq, evaluateText, evaluateTextBy, evaluateTextBy]
  simp only [evaluateFlatGuarded_eq alarm isFinite_one, evaluateFlatGuarded_eq alarm hneutral]

theorem evaluateExpressionGuarded_eq (e : Text) :
    evaluateExpressionGuarded alarm e = evaluateExpression e := by
  have hflat : evaluateFlatGuarded alarm 1 = evaluateFlat 1 :=
    funext (evaluateFlatGuarded_eq alarm isFinite_one)
  rw [evaluateExpressionGuarded, replacementGuarded_eq, hflat, evaluateExpression]

end Evaluation

/-! ## Problems -/

/-- The problems that a report has beyond those of an earlier one do not come from operands that are
no finite numbers. -/
def Report.NoneOfNonfinite (r q : Report) : Prop :=
  ∃ new, q.problems = r.problems ++ new ∧ ∀ p ∈ new, p.ofNonfinite = false

namespace Evaluation

/-- No problem of operands that are no finite numbers is reported. -/
def noneOfNonfinite (limits : Limits) (start : Report) : Invariant limits where
  holds s := start.NoneOfNonfinite s.report
  addStep := by
    rintro s h e
    rwa [Report.NoneOfNonfinite, Session.problems_addStep]
  addProblem := by
    rintro s ⟨new, hnew, hall⟩ p hp
    have hfinite : p.ofNonfinite = false := (Bool.or_eq_false_iff.1 hp).1
    refine ⟨new ++ [p], ?_, List.forall_mem_append.2 ⟨hall, List.forall_mem_singleton.2 hfinite⟩⟩
    show s.report.problems ++ [p] = _
    rw [hnew, List.append_assoc]
  afterRoll := by
    intro s h loud negative count faces source
    rwa [Report.NoneOfNonfinite, (s.throws_afterRoll _ _ _ _ _ _).problems]

theorem noneOfNonfinite_refl (r : Report) : r.NoneOfNonfinite r := ⟨[], by simp, by simp⟩

/-! ## Main result -/

/-- Only finite numbers are computed.  Whatever the alarm does, evaluations with all guards are the
evaluations themselves, so every value of a text or of a part of it is finite, dice, factorials and
functions get finite numbers only, and what replaces a group is a literal.  So a run that gives a
value gives a finite one, and no problem is reported that operands have which are no finite
numbers. -/
theorem evaluation_isFinite [MathLibrary] [Stack] (alarm : Handover → Evaluation Unit) :
    (∀ neutral : Float, neutral.isFinite = true → ∀ t : Text,
      evaluateTextGuarded alarm neutral t = evaluateText neutral t ∧
        ∀ (limits : Limits) (s : Session),
          Ends (·.isFinite = true) (fun u => s.report.NoneOfNonfinite u.report)
            ((evaluateText neutral t).runOn limits s)) ∧
      ∀ e : Text, evaluateExpressionGuarded alarm e = evaluateExpression e ∧
        ∀ (limits : Limits) (s : Session),
          Ends (·.isFinite = true) (fun u => s.report.NoneOfNonfinite u.report)
            ((evaluateExpression e).runOn limits s) := by
  constructor
  · intro neutral hneutral t
    refine ⟨evaluateTextGuarded_eq alarm hneutral t, fun limits s => ?_⟩
    exact (noneOfNonfinite limits s.report).ends_evaluateText hneutral t
      (noneOfNonfinite_refl s.report)
  · intro e
    refine ⟨evaluateExpressionGuarded_eq alarm e, fun limits s => ?_⟩
    exact (noneOfNonfinite limits s.report).ends_evaluateExpression e
      (noneOfNonfinite_refl s.report)

/-- An alarm that stops everything does not stop two dice, where nothing counts as zero. -/
theorem evaluateTextGuarded_twoDice :
    (0 : Float).isFinite = true ∧
      evaluateTextGuarded (fun _ => throw .sumTooLarge) 0 "2d6".toList =
        evaluateText 0 "2d6".toList ∧
      Ends (·.isFinite = true) (fun u => Report.NoneOfNonfinite {} u.report)
        ((evaluateText 0 "2d6".toList).runOn {} ⟨{}, .ofSeed 1⟩) := by
  have hzero : (0 : Float).isFinite = true := by decide
  obtain ⟨hguarded, hends⟩ :=
    (evaluation_isFinite fun _ => throw .sumTooLarge).1 0 hzero "2d6".toList
  exact ⟨hzero, hguarded, hends {} ⟨{}, .ofSeed 1⟩⟩

end Evaluation

end Reckoner
