import Mathlib
import Reckoner.Proofs.Evaluation.Substitution
import Reckoner.Proofs.Evaluation.Value
import Reckoner.Proofs.Expression.Shape

/-!
# Levels that run out

A text without dice that has a value under some number of levels has the same value under every
other one, or the levels run out before anything is reported (`Term.attempts_read`): no number of
levels gives it another value (`Term.eq_of_gives_read`) or another problem.
-/

namespace Reckoner

namespace Evaluation

variable {α β : Type} {m : Evaluation α} {f : α → Evaluation β} {a : α} {b : β}

/-! ## Runs that only add to the trace -/

/-- Every run ends with the value, and adds to the trace at most. -/
def Runs (m : Evaluation α) (a : α) : Prop :=
  ∀ (limits : Limits) (s : Session), ∃ s', m.runOn limits s = .ok a s' ∧ s'.untraced = s.untraced

/-- In every run the levels run out, and at most the trace was added to before. -/
def RunsOut (m : Evaluation α) : Prop :=
  ∀ (limits : Limits) (s : Session), ∃ s', m.runOn limits s = .error .tooDeep s' ∧
    s'.untraced = s.untraced

/-- Every run ends with the value, or the levels run out in every run. -/
def Attempts (m : Evaluation α) (a : α) : Prop := Runs m a ∨ RunsOut m

theorem runs_pure (a : α) : Runs (pure a) a := fun _ s => ⟨s, rfl, rfl⟩

theorem runs_trace (event : Event) (source : Text) : Runs (trace event source) () := fun limits s =>
  ⟨_, runOn_trace limits s event source, Session.untraced_addStep limits s ⟨event, source⟩⟩

theorem runsOut_tooDeep : RunsOut (throw .tooDeep : Evaluation α) := fun _ s => ⟨s, rfl, rfl⟩

/-- After such a run, what follows goes on with the value and at most another trace. -/
theorem Runs.exists_runOn_bind (hm : Runs m a) (f : α → Evaluation β) (limits : Limits)
    (s : Session) : ∃ t : Session, t.untraced = s.untraced ∧
      (m >>= f).runOn limits s = (f a).runOn limits t := by
  obtain ⟨t, hrun, ht⟩ := hm limits s
  exact ⟨t, ht, runOn_bind_of_ok hrun⟩

theorem Runs.bind (hm : Runs m a) (hf : Runs (f a) b) : Runs (m >>= f) b := by
  intro limits s
  obtain ⟨t, ht, hrest⟩ := hm.exists_runOn_bind f limits s
  obtain ⟨u, hrun, hu⟩ := hf limits t
  exact ⟨u, hrest.trans hrun, hu.trans ht⟩

theorem Runs.bind_runsOut (hm : Runs m a) (hf : RunsOut (f a)) : RunsOut (m >>= f) := by
  intro limits s
  obtain ⟨t, ht, hrest⟩ := hm.exists_runOn_bind f limits s
  obtain ⟨u, hrun, hu⟩ := hf limits t
  exact ⟨u, hrest.trans hrun, hu.trans ht⟩

theorem RunsOut.bind (hm : RunsOut m) (f : α → Evaluation β) : RunsOut (m >>= f) := by
  intro limits s
  obtain ⟨t, hrun, ht⟩ := hm limits s
  exact ⟨t, runOn_bind_of_error hrun, ht⟩

/-- Where the levels run out, they run out in what follows too. -/
theorem Attempts.bind (hm : Attempts m a) (hf : Attempts (f a) b) : Attempts (m >>= f) b := by
  rcases hm with hm | hm
  · exact hf.imp hm.bind hm.bind_runsOut
  · exact .inr (hm.bind f)

/-- A value that one run gives is the only one. -/
theorem Attempts.eq_of_gives {b : α} (h : Attempts m a) (hb : Gives m b) : a = b := by
  obtain ⟨limits, s, s', hrun, -⟩ := hb
  rcases h with h | h <;> obtain ⟨t, hrun', -⟩ := h limits s <;> cases hrun.symm.trans hrun'
  rfl

/-- A run without a problem is one of the runs. -/
theorem Runs.gives (h : Runs m a) : Gives m a := by
  obtain ⟨s, hrun, hs⟩ := h {} ⟨{}, .ofSeed 0⟩
  exact ⟨{}, _, s, hrun, congrArg (fun s : Session => s.report.failed) hs⟩

/-- The literal of a finite number. -/
theorem runs_literal {l : Literal} (h : l.numeral.value.isFinite = true) :
    Runs (literal l) (Number.negateIf l.negative l.numeral.value) := by
  rw [literal]
  simp only [h, Bool.not_true, Bool.false_eq_true, if_false]
  exact (runs_trace _ _).bind (runs_pure _)

variable [MathLibrary] {good : α → Prop}

/-- Two evaluations whose runs all end with the same value are the same but for the trace. -/
theorem Runs.couples {limits : Limits} {m' : Evaluation α} (h : Runs m a) (h' : Runs m' a)
    (ha : good a) : (TextCoupling.untraced limits).Couples good m m' := by
  refine TextCoupling.couples_untraced_iff.2 fun s t hst => ?_
  obtain ⟨s', hrun, hs'⟩ := h limits s
  obtain ⟨t', hrun', ht'⟩ := h' limits t
  rw [hrun, hrun']
  refine ⟨?_, ?_⟩
  · rintro b u ⟨⟩
    exact ha
  · rw [untracedResult, untracedResult, hs', ht', hst]

/-- What is the same as a run but for the trace is one too. -/
theorem Runs.of_couples {m' : Evaluation α} {good : Limits → α → Prop} (hm : Runs m' a)
    (h : ∀ limits, (TextCoupling.untraced limits).Couples (good limits) m m') : Runs m a := by
  intro limits s
  obtain ⟨t, hrun, ht⟩ := hm limits s
  have hresult := (TextCoupling.couples_untraced_iff.1 (h limits) s s rfl).2
  rw [hrun] at hresult
  cases hm : m.runOn limits s with
  | ok y u =>
    rw [hm] at hresult
    obtain ⟨hy, hu⟩ := Prod.mk.inj hresult
    cases hy
    exact ⟨u, rfl, hu.trans ht⟩
  | error halt u =>
    rw [hm] at hresult
    cases (Prod.mk.inj hresult).1

/-- A text with a value is evaluated to it in every run. -/
theorem runs_of_hasValue [Stack] {e : Text} {x : Float} (h : HasValue e x) :
    Runs (evaluateNormalized (normalize e)) x :=
  fun limits s => (runOn_of_hasValue h limits s).2

/-- A text that is evaluated to a value in every run has it. -/
theorem hasValue_of_runs [Stack] {e : Text} {x : Float} (hcontent : e.IsGroupContent)
    (hquiet : 'd' ∉ e) (hloud : 'D' ∉ e) (h : Runs (evaluateNormalized (normalize e)) x) :
    HasValue e x := by
  obtain ⟨s, hrun, hs⟩ := h {} ⟨{}, .ofSeed 0⟩
  refine ⟨hcontent, hquiet, hloud, {}, .ofSeed 0, s.report, ?_, ?_⟩
  · rw [evaluate, evaluateExpression_def, runOn_tryCatch, hrun]
  · exact congrArg (fun s : Session => s.report.failed) hs

/-- Without dice, a value that one run gives is the value of every run. -/
theorem Diceless.runs (h : Diceless good m) (ha : Gives m a) : Runs m a := by
  obtain ⟨limits', t, t', hrun, hok⟩ := ha
  intro limits s
  have hagree := @Alike.agree _ _ _ _ _ h limits' limits s t s (.inr rfl)
  rw [hrun] at hagree
  cases hrun' : m.runOn limits s with
  | ok b s' =>
    rw [hrun'] at hagree
    obtain ⟨rfl, -, hs'⟩ := hagree
    exact ⟨s', rfl, hs'.resolve_left (by simp [hok])⟩
  | error halt s' =>
    rw [hrun'] at hagree
    exact hagree.elim

theorem Diceless.attempts (h : Diceless good m) (ha : Gives m a) : Attempts m a :=
  .inl (h.runs ha)

end Evaluation

/-! ## Texts under other levels -/

namespace Term

open Evaluation

variable [MathLibrary] {neutral a : Float}

/-- The levels run out in a row of terms if they do in one of them. -/
theorem attempts_evaluateAll {args : List Term} {xs : List Float}
    (h : List.Forall₂ (fun t x => Attempts (t.evaluate 1) x) args xs) :
    Attempts (evaluateAll args) xs := by
  induction h with
  | nil => exact .inl (runs_pure [])
  | cons ht hargs ih => exact ht.bind (ih.bind (.inl (runs_pure _)))

/-- A row of terms is attempted if every term is. -/
theorem forall₂_attempts {items : List Text} {g g' : Text → Term} {xs : List Float}
    (h : ∀ item ∈ items, ∀ {a : Float}, Gives ((g item).evaluate 1) a →
      Attempts ((g' item).evaluate 1) a)
    (hxs : List.Forall₂ (fun t x => Gives (t.evaluate 1) x) (items.map g) xs) :
    List.Forall₂ (fun t x => Attempts (t.evaluate 1) x) (items.map g') xs := by
  induction items generalizing xs with
  | nil =>
    cases hxs
    exact .nil
  | cons item items ih =>
    obtain ⟨hitem, hitems⟩ := List.forall_mem_cons.1 h
    cases hxs with
    | cons hx hxs => exact .cons (hitem hx) (ih hitems hxs)

/-- A function is attempted if its arguments are. -/
theorem attempts_call {source written : Text} {l : Option Literal} {f : MathFunction}
    {args args' : List Term} (hdice : (call source l f written args).DiceIn fun _ => False)
    (hargs : ∀ xs, List.Forall₂ (fun t x => Gives (t.evaluate 1) x) args xs →
      List.Forall₂ (fun t x => Attempts (t.evaluate 1) x) args' xs)
    (h : Gives ((call source l f written args).evaluate neutral) a) :
    Attempts ((call source l f written args').evaluate neutral) a := by
  obtain ⟨y, xs, hy, hxs, hvalue⟩ := gives_call hdice h
  have hattempts := attempts_evaluateAll (hargs xs (forall₂_of_gives_evaluateAll hdice hxs))
  exact ((diceless_factor source l).attempts hy).bind
    (hattempts.bind ((diceless_function source y f written xs).attempts hvalue))

/-- A text that has a value under some number of levels is attempted under every other one.  The
induction is on the levels under which it has the value. -/
theorem attempts_read [Stack] {room charge : Nat} {t : Text}
    (hdice : (read room charge t).DiceIn fun _ => False)
    (h : Gives ((read room charge t).evaluate neutral) a) (room' charge' : Nat) :
    Attempts ((read room' charge' t).evaluate neutral) a := by
  induction room generalizing charge room' charge' t neutral a with
  | zero => exact absurd h not_gives_tooDeep
  | succ room ih =>
    cases charge with
    | succ charge =>
      rw [read_charge] at h hdice
      exact ih hdice h room' charge'
    | zero =>
      rw [read_eq_sub room' charge']
      generalize room' - charge' = room'
      cases room' with
      | zero => exact .inr runsOut_tooDeep
      | succ room' =>
        obtain ⟨T, hshape, hread⟩ := exists_shape t
        rw [hread] at h hdice ⊢
        cases hshape with
        | absent => exact gives_pure_iff.1 h ▸ .inl (runs_pure _)
        | binary =>
          obtain ⟨x, y, hx, hy, hleft, hright, hvalue⟩ := gives_binary hdice h
          have hoperator := diceless_operator (fun loud heq => hdice.1 loud heq) t t hx hy
          exact (ih hdice.2.1 hleft room' 0).bind
            ((ih hdice.2.2 hright room' 0).bind (Diceless.attempts hoperator hvalue))
        | factorial =>
          obtain ⟨x, hx, hoperand, hvalue⟩ := gives_factorial hdice h
          exact (ih hdice hoperand room' 0).bind ((diceless_factorial hx).attempts hvalue)
        | @constant l c rest =>
          have hone : Gives ((constant t l c (read room 1 rest)).evaluate 1) a := h
          have hfinite := (diceless_evaluate isFinite_failedValue hdice).of_gives hone
          obtain ⟨y, z, hy, hz, rfl⟩ := gives_constant hdice h
          have hcheck : checkFinite (y * c.value * z) (.constantOverflow t) =
              pure (y * c.value * z) := if_pos hfinite
          refine ((diceless_factor t l).attempts hy).bind (.bind (.inl (runs_trace _ _))
            ((ih hdice hz room' 1).bind ?_))
          rw [hcheck]
          exact .inl (runs_pure _)
        | @call l f rest =>
          refine attempts_call hdice (fun xs => @forall₂_attempts _ [rest] (read room 2)
            (read room' 2) xs fun item hitem x hx => ?_) h
          obtain rfl := List.mem_singleton.1 hitem
          exact ih hdice.1 hx room' 2
        | @list l f rest args =>
          refine attempts_call hdice (fun xs => forall₂_attempts fun item hitem x hx => ?_) h
          exact ih (allDiceIn_iff.1 hdice _ (List.mem_map_of_mem hitem)) hx room' _
        | emptyCall => exact absurd h not_gives_emptyCall
        | literal => exact (diceless_literal _).attempts h
        | unreadable => exact absurd h (not_gives_unreadable t)

/-- The value of a text does not depend on the levels that are left. -/
theorem eq_of_gives_read [Stack] {room charge room' charge' : Nat} {t : Text} {b : Float}
    (hdice : (read room charge t).DiceIn fun _ => False)
    (ha : Gives ((read room charge t).evaluate neutral) a)
    (hb : Gives ((read room' charge' t).evaluate neutral) b) : a = b :=
  (attempts_read hdice ha room' charge').eq_of_gives hb

end Term

end Reckoner
