import Mathlib
import Reckoner.Proofs.Evaluation.Run
import Reckoner.Proofs.Number.Finite

/-!
# Coupled evaluations

Two runs of evaluations are compared step by step: whatever both do, a relation between their
sessions is kept.  A `Coupling` states the relation and that problems, steps and dice keep it;
then the parts of an evaluation keep it one after the other, give the same values, and stop
together for the same cause (`Coupling.Couples`).  All numbers that are computed on the way are
finite, so none of the problems that infinite operands have is ever reported, nor one that is stated
in words (`Problem.isForeign`).
-/

namespace Reckoner

/-- Whether a problem comes from operands that are no finite numbers. -/
def Problem.ofNonfinite : Problem → Bool
  | infiniteDice _ _ | infiniteFactorial _ | noRemainder _ _ | groupOverflow _ => true
  | _ => false

/-- Whether a problem is stated in words. -/
def Problem.isStated : Problem → Bool
  | stated _ _ => true
  | _ => false

/-- Whether no text has the problem. -/
def Problem.isForeign (p : Problem) : Bool := p.ofNonfinite || p.isStated

namespace Evaluation

theorem isFinite_failedValue : failedValue.isFinite = true := by
  decide

/-! ## Coupled runs -/

section

variable {α β γ δ : Type} {limits₁ limits₂ : Limits}
  {before after : Session → Session → Prop} {post : α → β → Session → Session → Prop}
  {stop : Halt → Session → Session → Prop}

/-- Two results agree: both are values with the one relation between them and their sessions, or
both stop for the same cause with the other relation. -/
def Agree (post : α → β → Session → Session → Prop) (stop : Halt → Session → Session → Prop) :
    EStateM.Result Halt Session α → EStateM.Result Halt Session β → Prop
  | .ok a s, .ok b t => post a b s t
  | .error halt s, .error halt' t => halt = halt' ∧ stop halt s t
  | _, _ => False

/-- Results that agree are two values, or two stops for the same cause. -/
theorem Agree.cases {r : EStateM.Result Halt Session α} {r' : EStateM.Result Halt Session β}
    (h : Agree post stop r r') :
    (∃ a b s t, r = .ok a s ∧ r' = .ok b t ∧ post a b s t) ∨
      ∃ halt s t, r = .error halt s ∧ r' = .error halt t ∧ stop halt s t := by
  cases r with
  | ok a s =>
    cases r' with
    | ok b t => exact .inl ⟨a, b, s, t, rfl, rfl, h⟩
    | error halt t => exact h.elim
  | error halt s =>
    cases r' with
    | ok b t => exact h.elim
    | error halt' t =>
      obtain ⟨rfl, hstop⟩ := h
      exact .inr ⟨halt, s, t, rfl, rfl, hstop⟩

theorem Agree.mono {r : EStateM.Result Halt Session α} {r' : EStateM.Result Halt Session β}
    {post' : α → β → Session → Session → Prop} {stop' : Halt → Session → Session → Prop}
    (h : Agree post stop r r') (hpost : ∀ a b s t, post a b s t → post' a b s t)
    (hstop : ∀ halt s t, stop halt s t → stop' halt s t) : Agree post' stop' r r' := by
  rcases h.cases with ⟨a, b, s, t, rfl, rfl, hab⟩ | ⟨halt, s, t, rfl, rfl, hhalt⟩
  · exact hpost a b s t hab
  · exact ⟨rfl, hstop halt s t hhalt⟩

/-- From related sessions, two evaluations have results that agree. -/
def Coupled (limits₁ limits₂ : Limits) (before : Session → Session → Prop) (m₁ : Evaluation α)
    (m₂ : Evaluation β) (post : α → β → Session → Session → Prop)
    (stop : Halt → Session → Session → Prop) : Prop :=
  ∀ s t, before s t → Agree post stop (m₁.runOn limits₁ s) (m₂.runOn limits₂ t)

theorem Coupled.pure {a : α} {b : β} (h : ∀ s t, before s t → post a b s t) :
    Coupled limits₁ limits₂ before (Pure.pure a) (Pure.pure b) post stop := by
  intro s t hst
  rw [runOn_pure, runOn_pure]
  exact h s t hst

theorem Coupled.bind {m₁ : Evaluation α} {m₂ : Evaluation β} {f₁ : α → Evaluation γ}
    {f₂ : β → Evaluation δ} {post' : γ → δ → Session → Session → Prop}
    (h : Coupled limits₁ limits₂ before m₁ m₂ post stop)
    (hf : ∀ a b, Coupled limits₁ limits₂ (post a b) (f₁ a) (f₂ b) post' stop) :
    Coupled limits₁ limits₂ before (m₁ >>= f₁) (m₂ >>= f₂) post' stop := by
  intro s t hst
  rcases (h s t hst).cases with ⟨a, b, s', t', h₁, h₂, hpost⟩ | ⟨halt, s', t', h₁, h₂, hstop⟩
  · rw [runOn_bind_of_ok h₁, runOn_bind_of_ok h₂]
    exact hf a b s' t' hpost
  · rw [runOn_bind_of_error h₁, runOn_bind_of_error h₂]
    exact ⟨rfl, hstop⟩

end

/-! ## Dice -/

section

variable {limits₁ limits₂ : Limits} {rel : Session → Session → Prop} {loud loud' : Bool}
  {count faces : Float} (hcap : limits₁.dice = limits₂.dice)
  (hdice : ∀ {s t}, rel s t → s.dice = t.dice)
  (hstep : ∀ {s t}, rel s t → ∀ e, rel (s.addStep limits₁ e) (t.addStep limits₂ e))
  (hproblem : ∀ {s t}, rel s t → ∀ p,
    ((count.isFinite && faces.isFinite) = true → p.isForeign = false) →
      rel (s.addProblem p) (t.addProblem p))
  (hroll : ∀ {s t}, rel s t → ∀ (negative : Bool) (count : Nat) (faces : Int) (source : Text),
    rel (afterRoll loud negative count faces source limits₁ s)
      (afterRoll loud' negative count faces source limits₂ t))
include hcap hdice hstep hproblem hroll

/-- Two rolls of the same dice are coupled if the sessions are related after dice were thrown. -/
theorem coupled_roll {stop : Halt → Session → Session → Prop}
    (hstop : ∀ {s t}, rel s t → ∀ (negative : Bool) (count : Nat) (faces : Int) (source : Text),
      (count : Int) ≤ limits₁.dice → 1 ≤ faces →
      Number.ofInt? (rolledTotal negative count faces s.dice) = none →
      stop .sumTooLarge (afterRoll loud negative count faces source limits₁ s)
        (afterRoll loud' negative count faces source limits₂ t))
    (hrefuse : ∀ {s t}, rel s t → limits₁.dice < (Number.round count).natAbs →
      Text.isWritable limits₁.dice = false → stop .tooManyDigits s t) :
    Coupled limits₁ limits₂ rel (Dice.roll loud count faces) (Dice.roll loud' count faces)
      (fun a b s t => a = b ∧ a.isFinite = true ∧ rel s t) stop := by
  intro s t hst
  have hfail : ∀ p, ((count.isFinite && faces.isFinite) = true → p.isForeign = false) →
      Agree (fun a b s t => a = b ∧ a.isFinite = true ∧ rel s t) stop
        (.ok failedValue (s.addProblem p)) (.ok failedValue (t.addProblem p)) := by
    intro p hp
    exact ⟨rfl, isFinite_failedValue, hproblem hst p hp⟩
  rw [Dice.runOn_roll, Dice.runOn_roll, ← hcap]
  split_ifs with hinfinite hcount hzero hfaces
  · refine hfail _ fun hfinite => ?_
    rw [hfinite] at hinfinite
    cases hinfinite
  · cases hwritable : Text.isWritable limits₁.dice with
    | true =>
      rw [Dice.runOn_refuse hwritable, Dice.runOn_refuse hwritable]
      exact hfail _ fun _ => rfl
    | false =>
      rw [Dice.runOn_refuse_of_not_isWritable hwritable,
        Dice.runOn_refuse_of_not_isWritable hwritable]
      exact ⟨rfl, hrefuse hst hcount hwritable⟩
  · exact ⟨rfl, by decide, hstep hst _⟩
  · exact hfail _ fun _ => rfl
  · rw [runOn_rollSome, runOn_rollSome, ← hdice hst]
    split
    · rename_i total htotal
      exact ⟨rfl, Number.isFinite_of_ofInt? htotal, hroll hst _ _ _ _⟩
    · rename_i htotal
      exact ⟨rfl, hstop hst _ _ _ _ (not_lt.1 hcount) (not_lt.1 hfaces) htotal⟩

/-- A relation that both rolls keep is kept also when they stop. -/
theorem coupled_roll_always :
    Coupled limits₁ limits₂ rel (Dice.roll loud count faces) (Dice.roll loud' count faces)
      (fun a b s t => a = b ∧ a.isFinite = true ∧ rel s t) (fun _ => rel) :=
  coupled_roll hcap hdice hstep hproblem hroll
    (fun hst negative count faces source _ _ _ => hroll hst negative count faces source)
    fun hst _ _ => hst

end

end Evaluation

/-! ## Couplings -/

/-- A relation between the sessions of two runs that the parts of an evaluation keep.  The runs may
be under different limits, and the relation may leave out what the two runs do differently. -/
structure Coupling [MathLibrary] where
  /-- The limits of the first run. -/
  limits₁ : Limits
  /-- The limits of the second run. -/
  limits₂ : Limits
  /-- The relation between the sessions. -/
  rel : Session → Session → Prop
  /-- The relation between the sessions after both runs stopped. -/
  stop : Halt → Session → Session → Prop
  /-- Which steps may be added to the two traces together. -/
  step : Step → Step → Prop
  /-- Which problems may be reported together. -/
  problem : Problem → Problem → Prop
  /-- Which dice operators may be used, the loud one or the quiet one. -/
  dice : Bool → Prop
  step_refl : ∀ e, step e e
  problem_refl : ∀ p, p.isForeign = false → problem p p
  rel_step : ∀ {s t e e'}, rel s t → step e e' → rel (s.addStep limits₁ e) (t.addStep limits₂ e')
  rel_problem : ∀ {s t p p'}, rel s t → problem p p' → rel (s.addProblem p) (t.addProblem p')
  rel_roll : ∀ {loud}, dice loud → ∀ {count faces}, count.isFinite = true → faces.isFinite = true →
    Evaluation.Coupled limits₁ limits₂ rel (Dice.roll loud count faces)
      (Dice.roll loud count faces) (fun a b s t => a = b ∧ a.isFinite = true ∧ rel s t) stop
  /-- Both runs stop at a fault that is not reported. -/
  stop_fault : ∀ {s t} {f : MathFunction} {args : List Float} {fault : MathFault}, rel s t →
    f.bounds.accepts args.length = true → f.domain args = true → f.apply args = .error fault →
    fault.isReported = false → stop (.fault fault) s t

/-- A coupling that evaluations of texts keep too, which may be nested too deep. -/
structure TextCoupling [MathLibrary] extends Coupling where
  /-- Both runs stop at a text that is nested too deep. -/
  stop_tooDeep : ∀ {s t}, rel s t → stop .tooDeep s t
  /-- The relation is kept when a text is nested too deep. -/
  rel_of_tooDeep : ∀ {s t}, stop .tooDeep s t → rel s t

namespace Coupling

open Evaluation

section

variable [MathLibrary] (c : Coupling) {α β : Type}

/-- The two evaluations keep the relation, give the same value, and have a property in common. -/
def Couples (good : α → Prop) (m₁ m₂ : Evaluation α) : Prop :=
  Coupled c.limits₁ c.limits₂ c.rel m₁ m₂ (fun a b s t => a = b ∧ good a ∧ c.rel s t) c.stop

/-- The two evaluations give the same finite number. -/
abbrev CouplesFinite (m₁ m₂ : Evaluation Float) : Prop := c.Couples (·.isFinite = true) m₁ m₂

variable {c} {good : α → Prop} {good' : β → Prop}

theorem couples_pure {a : α} (h : good a) : c.Couples good (pure a) (pure a) := by
  apply Coupled.pure
  intro s t hst
  exact ⟨rfl, h, hst⟩

theorem Couples.bind {m₁ m₂ : Evaluation α} {f₁ f₂ : α → Evaluation β} (h : c.Couples good m₁ m₂)
    (hf : ∀ a, good a → c.Couples good' (f₁ a) (f₂ a)) :
    c.Couples good' (m₁ >>= f₁) (m₂ >>= f₂) := by
  refine Coupled.bind h ?_
  rintro a b s t ⟨rfl, ha, hst⟩
  exact hf a ha s t hst

theorem couples_throw {halt : Halt} (h : ∀ s t, c.rel s t → c.stop halt s t) :
    c.Couples good (throw halt) (throw halt) := by
  intro s t hst
  rw [runOn_throw, runOn_throw]
  exact ⟨rfl, h s t hst⟩

theorem couples_trace {event event' : Event} {source source' : Text}
    (h : c.step ⟨event, source⟩ ⟨event', source'⟩) :
    c.Couples (fun _ => True) (trace event source) (trace event' source') := by
  intro s t hst
  rw [runOn_trace, runOn_trace]
  exact ⟨rfl, trivial, c.rel_step hst h⟩

theorem couples_fail {p p' : Problem} (h : c.problem p p') :
    c.CouplesFinite (fail p) (fail p') := by
  intro s t hst
  rw [runOn_fail, runOn_fail]
  exact ⟨rfl, isFinite_failedValue, c.rel_problem hst h⟩

/-- A step and something that follows it. -/
theorem couples_trace_bind {event : Event} {source source' : Text} {m₁ m₂ : Evaluation α}
    (h : c.step ⟨event, source⟩ ⟨event, source'⟩) (hm : c.Couples good m₁ m₂) :
    c.Couples good (do trace event source; m₁) (do trace event source'; m₂) := by
  apply (couples_trace h).bind
  intro _ _
  exact hm

theorem couples_checkFinite {x : Float} {p p' : Problem} (h : c.problem p p') :
    c.CouplesFinite (checkFinite x p) (checkFinite x p') := by
  unfold checkFinite
  split
  · rename_i hx
    exact couples_pure hx
  · exact couples_fail h

/-- A finite number has no problem. -/
theorem couples_checkFinite_of_isFinite {x : Float} (hx : x.isFinite = true) (p p' : Problem) :
    c.CouplesFinite (checkFinite x p) (checkFinite x p') := by
  unfold checkFinite
  rw [if_pos hx, if_pos hx]
  exact couples_pure hx

end

/-! ## Operators and functions -/

section

variable [MathLibrary] {c : Coupling} {source source' : Text}

theorem couples_power (h : ∀ e, c.step ⟨e, source⟩ ⟨e, source'⟩) (a b : Float) :
    c.CouplesFinite (power source a b) (power source' a b) := by
  unfold power
  split
  · exact couples_fail (c.problem_refl _ rfl)
  · simp only
    split
    · exact couples_fail (c.problem_refl _ rfl)
    · rename_i hreal
      split
      · exact couples_fail (c.problem_refl _ rfl)
      · rename_i hinf
        simp only [Bool.or_eq_true, not_or, Bool.not_eq_true] at hreal
        exact couples_trace_bind (h _)
          (couples_pure (Number.isFinite_iff.2 ⟨hreal.1, Bool.eq_false_iff.2 hinf⟩))

theorem couples_arithmetic (h : ∀ e, c.step ⟨e, source⟩ ⟨e, source'⟩) (op : Arithmetic)
    {a b : Float} (ha : a.isFinite = true) (hb : b.isFinite = true) :
    c.CouplesFinite (arithmetic op source a b) (arithmetic op source' a b) := by
  cases op with
  | add => exact couples_trace_bind (h _) (couples_checkFinite (c.problem_refl _ rfl))
  | subtract => exact couples_trace_bind (h _) (couples_checkFinite (c.problem_refl _ rfl))
  | multiply => exact couples_trace_bind (h _) (couples_checkFinite (c.problem_refl _ rfl))
  | divide =>
    simp only [arithmetic]
    split
    · exact couples_fail (c.problem_refl _ rfl)
    · exact couples_trace_bind (h _) (couples_checkFinite (c.problem_refl _ rfl))
  | power => exact couples_power h a b
  | remainder =>
    simp only [arithmetic]
    split
    · exact couples_fail (c.problem_refl _ rfl)
    · rw [ha, hb, if_neg (by decide)]
      exact couples_trace_bind (h _) (couples_pure (Number.isFinite_remainder b ha))

theorem couples_operator (h : ∀ e, c.step ⟨e, source⟩ ⟨e, source'⟩) {op : Operator}
    (hop : ∀ loud, op = .dice loud → c.dice loud) {a b : Float} (ha : a.isFinite = true)
    (hb : b.isFinite = true) :
    c.CouplesFinite (operator op source a b) (operator op source' a b) := by
  cases op with
  | arithmetic op => exact couples_arithmetic h op ha hb
  | dice loud => exact c.rel_roll (hop loud rfl) ha hb

theorem couples_factorial {operand : Float} (hfinite : operand.isFinite = true) :
    c.CouplesFinite (Reckoner.factorial operand) (Reckoner.factorial operand) := by
  unfold Reckoner.factorial
  rw [hfinite, if_neg (by decide)]
  simp only
  split
  · exact couples_fail (c.problem_refl _ rfl)
  · rename_i product hproduct
    refine couples_trace_bind (c.step_refl _) (couples_pure ?_)
    exact isFinite_fallingProduct (Number.toNat_round_lt hfinite) (by decide) hproduct

theorem couples_literal (l : Literal) : c.CouplesFinite (literal l) (literal l) := by
  unfold literal
  simp only
  split
  · exact couples_fail (c.problem_refl _ rfl)
  · rename_i hfinite
    simp only [Bool.not_eq_true', Bool.not_eq_false] at hfinite
    refine couples_trace_bind (c.step_refl _) (couples_pure ?_)
    rw [Number.isFinite_negateIf, hfinite]

theorem couples_factor (h : ∀ e, c.step ⟨e, source⟩ ⟨e, source'⟩) (l : Option Literal) :
    c.CouplesFinite (factor source l) (factor source' l) := by
  cases l with
  | none => exact couples_pure (by decide)
  | some l => exact couples_trace_bind (h _) (couples_literal l)

/-- A function applied to the same arguments, which may be written differently. -/
theorem couples_function (h : ∀ e, c.step ⟨e, source⟩ ⟨e, source'⟩) {f : MathFunction}
    {written written' : Text}
    (hwritten : ∀ n, c.problem (.argumentCount f n written) (.argumentCount f n written'))
    (x : Float) (args : List Float) :
    c.CouplesFinite (function source x f written args) (function source' x f written' args) := by
  unfold function
  split
  · exact couples_fail (hwritten _)
  · rename_i hcount
    split
    · exact couples_fail (c.problem_refl _ rfl)
    · rename_i hdomain
      simp only [Bool.not_eq_true', Bool.not_eq_false] at hcount hdomain
      split
      · rename_i fault hfault
        split
        · exact couples_fail (c.problem_refl _ rfl)
        · rename_i hreported
          apply couples_throw
          intro s t hst
          exact c.stop_fault hst hcount hdomain hfault (Bool.eq_false_iff.2 hreported)
      · exact couples_trace_bind (h _) (couples_checkFinite (c.problem_refl _ rfl))

end

end Coupling

end Reckoner
