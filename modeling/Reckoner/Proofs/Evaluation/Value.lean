import Mathlib
import Reckoner.Proofs.Evaluation.Untraced

/-!
# Values without problems

An evaluation gives a value if one of its runs ends with the value and without a problem
(`Evaluation.Gives`).  Without dice (`Evaluation.Diceless`), the limits and the session of the run
do not matter, so there is one such value at most, and every part of the evaluation has given a
value too (`Evaluation.Gives.of_bind`).
-/

namespace Reckoner

namespace Evaluation

variable {α β : Type}

/-- A run of the evaluation ends with the value and without a problem. -/
def Gives (m : Evaluation α) (a : α) : Prop :=
  ∃ (limits : Limits) (s s' : Session), m.runOn limits s = .ok a s' ∧ s'.report.failed = false

theorem gives_pure_iff {a b : α} : Gives (pure a) b ↔ b = a := by
  constructor
  · rintro ⟨limits, s, s', hrun, -⟩
    cases hrun
    rfl
  · rintro rfl
    exact ⟨{}, ⟨{}, .ofSeed 0⟩, _, rfl, rfl⟩

/-- A problem is no value. -/
theorem not_gives_fail (p : Problem) (x : Float) : ¬ Gives (fail p) x := by
  rintro ⟨limits, s, s', hrun, hok⟩
  cases hrun
  exact absurd hok (by simp [Report.addProblem])

theorem not_gives_throw (halt : Halt) (a : α) : ¬ Gives (throw halt) a := by
  rintro ⟨limits, s, s', hrun, -⟩
  cases hrun

/-- A step is added first. -/
theorem Gives.of_trace {event : Event} {source : Text} {m : Evaluation α} {a : α}
    (h : Gives (trace event source >>= fun _ => m) a) : Gives m a := by
  obtain ⟨limits, s, s', hrun, hok⟩ := h
  rw [runOn_bind_of_ok (runOn_trace limits s event source)] at hrun
  exact ⟨limits, _, s', hrun, hok⟩

theorem Gives.of_checkFinite {x y : Float} {p : Problem} (h : Gives (checkFinite x p) y) :
    y = x ∧ x.isFinite = true := by
  unfold checkFinite at h
  split at h
  · rename_i hx
    exact ⟨gives_pure_iff.1 h, hx⟩
  · exact absurd h (not_gives_fail p y)

/-! ## Evaluations without dice -/

section

variable [MathLibrary] {good : α → Prop} {good' : β → Prop} {m m' : Evaluation α}

/-- Two evaluations that throw no dice and give the same, whatever they are run on. -/
def Alike (good : α → Prop) (m m' : Evaluation α) : Prop :=
  ∀ (limits limits' : Limits) (start : Session),
    (TextCoupling.quiet limits limits' start).Couples good m m'

/-- An evaluation that throws no dice. -/
abbrev Diceless (good : α → Prop) (m : Evaluation α) : Prop := Alike good m m

/-- Unless the first run has a problem, the second one only adds to its trace. -/
theorem Alike.agree (h : Alike good m m') (limits limits' : Limits) (start s : Session)
    {t : Session} (hst : s.report.failed = true ∨ t.untraced = start.untraced) :
    Agree (fun a b s t => a = b ∧ good a ∧ (s.report.failed = true ∨ t.untraced = start.untraced))
      (fun _ s t => s.report.failed = true ∨ t.untraced = start.untraced) (m.runOn limits s)
      (m'.runOn limits' t) :=
  h limits limits' start s t hst

theorem Alike.eq_of_gives (h : Alike good m m') {a b : α} (ha : Gives m a) (hb : Gives m' b) :
    a = b := by
  obtain ⟨limits, s, s', hrun, -⟩ := ha
  obtain ⟨limits', t, t', hrun', -⟩ := hb
  have hagree := h.agree limits limits' t s (.inr rfl)
  rw [hrun, hrun'] at hagree
  exact hagree.1

/-- What a run ends with is good. -/
theorem Diceless.isGood (h : Diceless good m) {limits : Limits} {s s' : Session} {a : α}
    (hrun : m.runOn limits s = .ok a s') : good a := by
  have hagree := Alike.agree h limits limits s s (.inr rfl)
  rw [hrun] at hagree
  exact hagree.2.1

theorem Diceless.of_gives (h : Diceless good m) {a : α} (ha : Gives m a) : good a := by
  obtain ⟨limits, s, s', hrun, -⟩ := ha
  exact h.isGood hrun

/-- After a problem, there is a problem at the end. -/
theorem Diceless.failed (h : Diceless good m) {limits : Limits} {s s' : Session} {a : α}
    (hs : s.report.failed = true) (hrun : m.runOn limits s = .ok a s') :
    s'.report.failed = true := by
  obtain ⟨start, hstart⟩ : ∃ start : Session, s'.untraced ≠ start.untraced := by
    refine ⟨⟨{ failed := !s'.report.failed }, s'.dice⟩, fun heq => ?_⟩
    have hfailed := congrArg (fun s : Session => s.report.failed) heq
    simp [Session.untraced, Report.untraced] at hfailed
  have hagree := @Alike.agree _ _ _ _ _ h limits limits start s s (.inl hs)
  rw [hrun] at hagree
  exact hagree.2.2.resolve_right hstart

/-- When an evaluation gives a value, so have its parts. -/
theorem Gives.of_bind {f : α → Evaluation β} {b : β} (h : Gives (m >>= f) b)
    (hm : Diceless good m) (hf : ∀ a, good a → Diceless good' (f a)) :
    ∃ a, good a ∧ Gives m a ∧ Gives (f a) b := by
  obtain ⟨limits, s, s', hrun, hok⟩ := h
  cases hfirst : m.runOn limits s with
  | error halt t =>
    rw [runOn_bind_of_error hfirst] at hrun
    cases hrun
  | ok a t =>
    rw [runOn_bind_of_ok hfirst] at hrun
    have hgood : good a := hm.isGood hfirst
    have ht : t.report.failed = false := by
      by_contra hfailed
      rw [(hf a hgood).failed (by simpa using hfailed) hrun] at hok
      exact absurd hok (by decide)
    exact ⟨a, hgood, ⟨limits, s, t, hfirst, ht⟩, ⟨limits, t, s', hrun, hok⟩⟩

omit [MathLibrary] in
/-- Whether there is a value does not depend on the trace. -/
theorem gives_iff_untracedResult {a : α} :
    Gives m a ↔ ∃ (limits : Limits) (s t : Session),
      untracedResult (m.runOn limits s) = (.ok a, t) ∧ t.report.failed = false := by
  constructor
  · rintro ⟨limits, s, s', hrun, hok⟩
    exact ⟨limits, s, s'.untraced, by rw [hrun]; rfl, hok⟩
  · rintro ⟨limits, s, t, hresult, hok⟩
    cases hrun : m.runOn limits s with
    | error halt s' =>
      rw [hrun] at hresult
      cases (Prod.mk.inj hresult).1
    | ok b s' =>
      rw [hrun] at hresult
      obtain ⟨hvalue, rfl⟩ := Prod.mk.inj hresult
      cases hvalue
      exact ⟨limits, s, s', hrun, hok⟩

/-- Evaluations that are the same but for the trace give the same values. -/
theorem gives_congr {good : Limits → α → Prop}
    (h : ∀ limits, (TextCoupling.untraced limits).Couples (good limits) m m') {a : α} :
    Gives m a ↔ Gives m' a := by
  rw [gives_iff_untracedResult, gives_iff_untracedResult]
  refine exists_congr fun limits => exists_congr fun s => ?_
  rw [(TextCoupling.couples_untraced_iff.1 (h limits) s s rfl).2]

/-- A value is good if all results are. -/
theorem Gives.of_untraced (h : ∀ limits, (TextCoupling.untraced limits).Couples good m m') {a : α}
    (ha : Gives m a) : good a := by
  obtain ⟨limits, s, s', hrun, -⟩ := ha
  exact (TextCoupling.couples_untraced_iff.1 (h limits) s s rfl).1 a s' hrun

end

end Evaluation

/-! ## Values of terms -/

/-- A text without dice operators. -/
def Text.WithoutDice (t : Text) : Prop := t.DiceIn fun _ => False

theorem Text.withoutDice_nil : WithoutDice [] := diceIn_of_not_mem (by simp) (by simp)

theorem Text.WithoutDice.cons {c : Char} {t : Text} (h : WithoutDice t) (hc : c ≠ 'd' ∧ c ≠ 'D') :
    WithoutDice (c :: t) :=
  diceIn_cons.2 ⟨fun _ _ hop => (eq_of_operator?_dice hop).elim hc.1 hc.2, h⟩

namespace Term

open Evaluation

section

variable [MathLibrary] {neutral x : Float}

theorem diceless_evaluate (hneutral : neutral.isFinite = true) {t : Term}
    (h : t.DiceIn fun _ => False) : Diceless (·.isFinite = true) (t.evaluate neutral) :=
  fun limits limits' start => @TextCoupling.couples_evaluate _ (.quiet limits limits' start) _
    hneutral t h

theorem diceless_evaluateAll {args : List Term} (h : AllDiceIn (fun _ => False) args) :
    Diceless (fun xs => ∀ x ∈ xs, x.isFinite = true) (evaluateAll args) :=
  fun limits limits' start =>
    @TextCoupling.couples_evaluateAll _ (.quiet limits limits' start) args h

theorem diceless_operator {op : Operator} (hop : ∀ loud, op ≠ .dice loud) (source source' : Text)
    {a b : Float} (ha : a.isFinite = true) (hb : b.isFinite = true) :
    Alike (·.isFinite = true) (operator op source a b) (operator op source' a b) :=
  fun limits limits' start => @Coupling.couples_operator _
    (TextCoupling.quiet limits limits' start).1 source source' (fun _ => trivial) op
      (fun loud h => absurd h (hop loud)) a b ha hb

theorem diceless_factorial {a : Float} (ha : a.isFinite = true) :
    Diceless (·.isFinite = true) (Reckoner.factorial a) :=
  fun limits limits' start =>
    @Coupling.couples_factorial _ (TextCoupling.quiet limits limits' start).1 a ha

theorem diceless_literal (l : Literal) : Diceless (·.isFinite = true) (Evaluation.literal l) :=
  fun limits limits' start =>
    @Coupling.couples_literal _ (TextCoupling.quiet limits limits' start).1 l

theorem diceless_factor (source : Text) (l : Option Literal) :
    Diceless (·.isFinite = true) (Evaluation.factor source l) :=
  fun limits limits' start => @Coupling.couples_factor _ (TextCoupling.quiet limits limits' start).1
    source source (fun _ => trivial) l

theorem diceless_function (source : Text) (factor : Float) (f : MathFunction) (written : Text)
    (xs : List Float) :
    Diceless (·.isFinite = true) (function source factor f written xs) :=
  fun limits limits' start => @Coupling.couples_function _
    (TextCoupling.quiet limits limits' start).1 source source (fun _ => trivial) f written written
      (fun _ => trivial) factor xs

/-! ### Parts of terms -/

theorem not_gives_tooDeep : ¬ Gives (tooDeep.evaluate neutral) x := not_gives_throw _ _

theorem not_gives_unreadable (t : Text) : ¬ Gives ((unreadable t).evaluate neutral) x :=
  not_gives_fail _ x

theorem not_gives_emptyCall {source written : Text} {l : Option Literal} {f : MathFunction} :
    ¬ Gives ((emptyCall source l f written).evaluate neutral) x := by
  intro h
  obtain ⟨-, -, -, hfail⟩ := h.of_bind (diceless_factor source l) fun _ _ _ _ _ =>
    Coupling.couples_fail trivial
  exact not_gives_fail _ x hfail

/-- Both operands of an operator have values. -/
theorem gives_binary {op : Operator} {source : Text} {left right : Term}
    (hdice : (binary op source left right).DiceIn fun _ => False)
    (h : Gives ((binary op source left right).evaluate neutral) x) :
    ∃ a b : Float, a.isFinite = true ∧ b.isFinite = true ∧ Gives (left.evaluate op.neutral) a ∧
      Gives (right.evaluate op.neutral) b ∧ Gives (operator op source a b) x := by
  obtain ⟨hop, hleft, hright⟩ := hdice
  have hoperator : ∀ {a b : Float}, a.isFinite = true → b.isFinite = true →
      Diceless (·.isFinite = true) (operator op source a b) := fun ha hb =>
    diceless_operator (fun loud heq => hop loud heq) source source ha hb
  obtain ⟨a, ha, hgives, hrest⟩ := h.of_bind (diceless_evaluate op.isFinite_neutral hleft)
    fun a ha _ _ _ => Coupling.Couples.bind
      (diceless_evaluate op.isFinite_neutral hright _ _ _) fun b hb => hoperator ha hb _ _ _
  obtain ⟨b, hb, hgives', hvalue⟩ := hrest.of_bind (diceless_evaluate op.isFinite_neutral hright)
    fun b hb => hoperator ha hb
  exact ⟨a, b, ha, hb, hgives, hgives', hvalue⟩

/-- The operand of a factorial has a value. -/
theorem gives_factorial {operand : Term} (hdice : (factorial operand).DiceIn fun _ => False)
    (h : Gives ((factorial operand).evaluate neutral) x) :
    ∃ a : Float, a.isFinite = true ∧ Gives (operand.evaluate 1) a ∧
      Gives (Reckoner.factorial a) x :=
  h.of_bind (@diceless_evaluate _ 1 isFinite_failedValue operand hdice)
    fun _ ha => diceless_factorial ha

/-- What stands behind a constant has a value. -/
theorem gives_constant {source : Text} {l : Option Literal} {c : MathConstant} {tail : Term}
    (hdice : (constant source l c tail).DiceIn fun _ => False)
    (h : Gives ((constant source l c tail).evaluate neutral) x) :
    ∃ y z : Float, Gives (Evaluation.factor source l) y ∧ Gives (tail.evaluate 1) z ∧
      x = y * c.value * z := by
  have htail := @diceless_evaluate _ 1 isFinite_failedValue tail hdice
  have hcheck : ∀ y z : Float, Diceless (·.isFinite = true)
      (checkFinite (y * c.value * z) (.constantOverflow source)) := fun y z _ _ _ =>
    Coupling.couples_checkFinite trivial
  obtain ⟨y, -, hy, hrest⟩ := h.of_bind (diceless_factor source l) fun y _ _ _ _ =>
    Coupling.couples_trace_bind trivial
      (Coupling.Couples.bind (htail _ _ _) fun z _ => hcheck y z _ _ _)
  obtain ⟨z, -, hz, hvalue⟩ := hrest.of_trace.of_bind htail fun z _ => hcheck y z
  exact ⟨y, z, hy, hz, hvalue.of_checkFinite.1⟩

/-- The arguments of a function have values. -/
theorem gives_call {source written : Text} {l : Option Literal} {f : MathFunction}
    {args : List Term} (hdice : (call source l f written args).DiceIn fun _ => False)
    (h : Gives ((call source l f written args).evaluate neutral) x) :
    ∃ (y : Float) (xs : List Float), Gives (Evaluation.factor source l) y ∧
      Gives (evaluateAll args) xs ∧ Gives (function source y f written xs) x := by
  have hargs := @diceless_evaluateAll _ args hdice
  obtain ⟨y, -, hy, hrest⟩ := h.of_bind (diceless_factor source l) fun y _ _ _ _ =>
    Coupling.Couples.bind (hargs _ _ _) fun xs _ => diceless_function source y f written xs _ _ _
  obtain ⟨xs, -, hxs, hvalue⟩ := hrest.of_bind hargs fun xs _ =>
    diceless_function source y f written xs
  exact ⟨y, xs, hy, hxs, hvalue⟩

/-- Every argument has a value. -/
theorem forall₂_of_gives_evaluateAll {args : List Term} {xs : List Float}
    (hdice : AllDiceIn (fun _ => False) args) (h : Gives (evaluateAll args) xs) :
    List.Forall₂ (fun t a => Gives (t.evaluate 1) a) args xs := by
  induction args generalizing xs with
  | nil =>
    rw [gives_pure_iff.1 h]
    exact .nil
  | cons t rest ih =>
    have hpure : ∀ xs : List Float, Diceless (fun _ => True) (pure xs) := fun _ _ _ _ =>
      Coupling.couples_pure trivial
    obtain ⟨a, -, ha, hrest⟩ := h.of_bind (diceless_evaluate isFinite_failedValue hdice.1)
      fun _ _ _ _ _ => Coupling.Couples.bind (diceless_evaluateAll hdice.2 _ _ _) fun _ _ =>
        hpure _ _ _ _
    obtain ⟨as, -, has, hvalue⟩ := hrest.of_bind (diceless_evaluateAll hdice.2)
      fun _ _ => hpure _
    rw [gives_pure_iff.1 hvalue]
    exact .cons ha (ih hdice.2 has)

end

end Term

end Reckoner
