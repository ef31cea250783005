import Mathlib
import Reckoner.Proofs.Dice.Summary
import Reckoner.Proofs.Evaluation.Phrase
import Reckoner.Proofs.Evaluation.Coupling

/-!
# Problems that are reported later

Two runs of one evaluation may report the same problems at different times: a numeral that is too
large is a problem where it is read, and one run may read it before the other.  The run that is
behind owes the problems to the other (`Session.Owes`), and pays them when it reads the literals
they belong to.
-/

namespace Reckoner

/-- The first session owes `k` problems to the second.  Otherwise the two are alike, but for the
wording and the trace of their reports. -/
structure Session.Owes (k : Nat) (s t : Session) : Prop where
  /-- The problems that are reported already, and those that are owed. -/
  problems : s.report.problems.length + k = t.report.problems.length
  /-- The same dice were thrown. -/
  thrown : s.report.thrown = t.report.thrown
  /-- The same dice are left to throw. -/
  dice : s.dice = t.dice
  /-- The summaries have the same text. -/
  rolls : s.report.rolls = t.report.rolls
  /-- As many dice operators were to be listed. -/
  listings : s.report.listings = t.report.listings

/-- The same dice were thrown in both sessions, and the same are left to throw. -/
def Session.SameDice (s t : Session) : Prop :=
  s.report.thrown = t.report.thrown ∧ s.dice = t.dice

namespace Session

variable {k : Nat} {s t : Session} {limits : Limits}

theorem owes_refl (s : Session) : Owes 0 s s := ⟨rfl, rfl, rfl, rfl, rfl⟩

/-- A debt is paid by reporting what is owed. -/
theorem Owes.pay {i : Nat} {s' : Session} (h : Owes (k + i) s t) (hpaid : Owes i s s') :
    Owes k s' t where
  problems := by
    have := h.problems
    have := hpaid.problems
    omega
  thrown := hpaid.thrown.symm.trans h.thrown
  dice := hpaid.dice.symm.trans h.dice
  rolls := hpaid.rolls.symm.trans h.rolls
  listings := hpaid.listings.symm.trans h.listings

/-- A debt grows by what the other run reports. -/
theorem Owes.trans {i : Nat} {u : Session} (h : Owes k s t) (hmore : Owes i t u) :
    Owes (k + i) s u where
  problems := by
    have := h.problems
    have := hmore.problems
    omega
  thrown := h.thrown.trans hmore.thrown
  dice := h.dice.trans hmore.dice
  rolls := h.rolls.trans hmore.rolls
  listings := h.listings.trans hmore.listings

theorem Owes.sameDice (h : Owes k s t) : SameDice s t := ⟨h.thrown, h.dice⟩

theorem owes_addProblem (s : Session) (p : Problem) : Owes 1 s (s.addProblem p) :=
  ⟨by simp [addProblem, Report.addProblem], rfl, rfl, rfl, rfl⟩

theorem owes_addStep (limits : Limits) (s : Session) (e : Step) :
    Owes 0 s (s.addStep limits e) := by
  unfold addStep Report.addStep
  split <;> exact ⟨rfl, rfl, rfl, rfl, rfl⟩

/-- Steps of the trace do not matter. -/
theorem Owes.addStep (h : Owes k s t) (e e' : Step) :
    Owes k (s.addStep limits e) (t.addStep limits e') :=
  (h.trans (owes_addStep limits t e')).pay (owes_addStep limits s e)

/-- A problem that both report leaves the debt as it is. -/
theorem Owes.addProblem (h : Owes k s t) (p p' : Problem) :
    Owes k (s.addProblem p) (t.addProblem p') :=
  (h.trans (owes_addProblem t p')).pay (owes_addProblem s p)

end Session

namespace Evaluation

/-- The debt stays the same when dice are rolled. -/
theorem owes_afterRoll {k : Nat} {s t : Session} (h : s.Owes k t) (loud negative : Bool)
    (count : Nat) (faces : Int) (source : Text) (limits : Limits) :
    (afterRoll loud negative count faces source limits s).Owes k
      (afterRoll loud negative count faces source limits t) := by
  unfold afterRoll
  simp only [h.dice]
  refine Session.Owes.addStep ?_ _ _
  cases loud with
  | false => exact ⟨h.problems, by simp [Report.addThrow, h.thrown], rfl, h.rolls, h.listings⟩
  | true =>
    -- both summaries become what that of the first run becomes
    have hs := @Dice.listRolls_eq (s.report.addThrow faces (t.dice.throw count faces).1) s.report
      rfl rfl limits
    have ht := @Dice.listRolls_eq (t.report.addThrow faces (t.dice.throw count faces).1) s.report
      h.rolls.symm h.listings.symm limits
    rw [if_pos rfl, if_pos rfl, hs, ht]
    exact ⟨h.problems, by simp [Report.withSummary, Report.addThrow, h.thrown], rfl, rfl, rfl⟩

end Evaluation

/-- Two runs of which the first owes problems to the second. -/
def Coupling.owing [MathLibrary] (limits : Limits) (k : Nat) : Coupling where
  limits₁ := limits
  limits₂ := limits
  rel := Session.Owes k
  stop halt s t := halt ≠ .tooDeep ∧ s.SameDice t
  step _ _ := True
  problem _ _ := True
  dice _ := True
  step_refl _ := trivial
  problem_refl _ _ := trivial
  rel_step h _ := h.addStep _ _
  rel_problem h _ := h.addProblem _ _
  rel_roll := by
    intro loud _ count faces _ _
    have hroll : ∀ {s t : Session}, s.Owes k t →
        ∀ (negative : Bool) (count : Nat) (faces : Int) (source : Text),
          (Evaluation.afterRoll loud negative count faces source limits s).Owes k
            (Evaluation.afterRoll loud negative count faces source limits t) :=
      fun h negative count faces source =>
        Evaluation.owes_afterRoll h loud negative count faces source limits
    exact Evaluation.coupled_roll rfl (fun h => h.dice) (fun h _ => h.addStep _ _)
      (fun h _ _ => h.addProblem _ _) hroll
      (fun h negative count faces source _ _ _ =>
        ⟨by simp, (hroll h negative count faces source).sameDice⟩)
      fun h _ _ => ⟨by simp, h.sameDice⟩
  stop_fault h _ _ _ _ := ⟨by simp, h.sameDice⟩

/-! ## Literals -/

namespace Literal

/-- The value that a literal is read as. -/
def worth (l : Literal) : Float :=
  if l.numeral.value.isFinite then Number.negateIf l.negative l.numeral.value
  else Evaluation.failedValue

/-- How many problems there are when a literal is read. -/
def debt (l : Literal) : Nat := if l.numeral.value.isFinite then 0 else 1

theorem isFinite_worth (l : Literal) : l.worth.isFinite = true := by
  unfold worth
  split
  · rename_i h
    rw [Number.isFinite_negateIf, h]
  · exact Evaluation.isFinite_failedValue

/-- A numeral without a sign is worth no negative zero. -/
theorem unsigned_worth (n : Numeral) :
    Number.unsigned (worth ⟨false, n⟩) = worth ⟨false, n⟩ := by
  unfold worth
  split
  · rename_i hfinite
    have hnonneg : 0 ≤ n.decimal.toRat :=
      mul_nonneg (Nat.cast_nonneg _) (zpow_nonneg (by norm_num) _)
    simp only [Numeral.value, Number.Decimal.toFloat_eq] at hfinite
    simp only [Number.negateIf, Numeral.value, Number.Decimal.toFloat_eq]
    exact Number.unsigned_ofRat hnonneg hfinite
  · decide

/-- The literal of a number is worth the number. -/
theorem exists_worth {x : Float} (h : x.isFinite = true) :
    ∃ l : Literal,
      l.WellFormed ∧ l.text = ofFloat x ∧ l.worth = Number.unsigned x ∧ l.debt = 0 := by
  obtain ⟨l, hl, htext, hfinite, hvalue⟩ := exists_ofFloat h
  exact ⟨l, hl, htext, by rw [worth, if_pos hfinite, hvalue], by rw [debt, if_pos hfinite]⟩

end Literal

/-! ## Paying -/

namespace Evaluation

variable {α β : Type}

/-- The evaluation gives a value whatever the session is, and reports as many problems. -/
def Pays (m : Evaluation α) (a : α) (i : Nat) : Prop :=
  ∀ limits s, ∃ t, m.runOn limits s = .ok a t ∧ s.Owes i t

theorem pays_pure (a : α) : Pays (pure a) a 0 := fun _ s => ⟨s, rfl, s.owes_refl⟩

theorem pays_trace (event : Event) (source : Text) : Pays (trace event source) () 0 :=
  fun limits s => ⟨_, rfl, Session.owes_addStep limits s _⟩

theorem pays_fail (p : Problem) : Pays (fail p) failedValue 1 :=
  fun _ s => ⟨_, rfl, s.owes_addProblem p⟩

theorem Pays.bind {m : Evaluation α} {f : α → Evaluation β} {a : α} {b : β} {i j : Nat}
    (h : Pays m a i) (hf : Pays (f a) b j) : Pays (m >>= f) b (i + j) := by
  intro limits s
  obtain ⟨t, hm, howes⟩ := h limits s
  obtain ⟨u, hu, howes'⟩ := hf limits t
  exact ⟨u, by rw [runOn_bind_of_ok hm, hu], howes.trans howes'⟩

/-- A result that is made of the value reports nothing more. -/
theorem Pays.map {m : Evaluation α} {a : α} {i : Nat} (h : Pays m a i) (g : α → β) :
    Pays (m >>= fun x => pure (g x)) (g a) i := by
  intro limits s
  obtain ⟨t, hm, howes⟩ := h limits s
  exact ⟨t, by rw [runOn_bind_of_ok hm, runOn_pure], howes⟩

/-- Reading a literal gives what it is worth and reports what it owes. -/
theorem pays_literal (l : Literal) : Pays (literal l) l.worth l.debt := by
  unfold literal Literal.worth Literal.debt
  simp only
  cases h : l.numeral.value.isFinite with
  | false => exact pays_fail _
  | true => exact (pays_trace _ _).map fun _ => _

/-- Literals that are arguments are read one after the other. -/
theorem pays_evaluateAll [MathLibrary] (ls : List Literal) :
    Pays (Term.evaluateAll (ls.map Term.literal)) (ls.map Literal.worth)
      (ls.map Literal.debt).sum := by
  induction ls with
  | nil => exact pays_pure []
  | cons l ls ih =>
    simp only [List.map_cons, List.sum_cons, Term.evaluateAll, Term.evaluate]
    exact (pays_literal l).bind (ih.map (l.worth :: ·))

/-- The first run owes `i` problems before the two evaluations and `k` problems after them, and both
give the same finite number. -/
def Clears (limits : Limits) (i k : Nat) (m m' : Evaluation Float) : Prop :=
  Coupled limits limits (Session.Owes i) m m'
    (fun x y s t => x = y ∧ x.isFinite = true ∧ s.Owes k t)
    (fun halt s t => halt ≠ .tooDeep ∧ s.SameDice t)

/-- A run that pays first is behind by so much less. -/
theorem Pays.clears {m : Evaluation α} {a : α} {i j k : Nat} (h : Pays m a j)
    {f : α → Evaluation Float} {m' : Evaluation Float} {limits : Limits}
    (hf : Clears limits i k (f a) m') : Clears limits (i + j) k (m >>= f) m' := by
  intro s t hst
  obtain ⟨s', hrun, howes⟩ := h limits s
  rw [runOn_bind_of_ok hrun]
  exact hf s' t (hst.pay howes)

/-- The same number, with nothing more to report. -/
theorem clears_pure {x : Float} (h : x.isFinite = true) (limits : Limits) (k : Nat) :
    Clears limits k k (pure x) (pure x) := .pure fun _ _ hst => ⟨rfl, h, hst⟩

end Evaluation

end Reckoner
