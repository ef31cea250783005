import Mathlib
import Reckoner.Proofs.Evaluation.Congruence
import Reckoner.Proofs.Expression.Respelling

/-!
# Evaluations of other spellings

A text and another spelling of it are evaluated alike: a coupling that lets the two runs report
their problems and their steps each in its own spelling (`Respelling.KeptBy`), is kept by the
evaluations of a text in both spellings (`Respelling.couples_evaluateNormalized`).
-/

namespace Reckoner

/-! ## Other letters -/

namespace Text

variable {f : Char → Char}

/-- Letters that are cased alike are met alike. -/
theorem meetsCased_map
    (hignorable : ∀ c, inRanges caseIgnorableRanges (f c) = inRanges caseIgnorableRanges c)
    (hcased : ∀ c, inRanges casedRanges (f c) = inRanges casedRanges c) (t : Text) :
    meetsCased (t.map f) = meetsCased t := by
  have hcomp : inRanges caseIgnorableRanges ∘ f = inRanges caseIgnorableRanges := funext hignorable
  unfold meetsCased
  rw [List.dropWhile_map, hcomp]
  cases t.dropWhile (inRanges caseIgnorableRanges) with
  | nil => rfl
  | cons c rest => exact hcased c

/-- Blank characters are left out before or after. -/
theorem removeBlanks_map (h : ∀ c, isBlank (f c) = isBlank c) (t : Text) :
    removeBlanks (t.map f) = t.removeBlanks.map f := by
  have hcomp : (fun c => !isBlank c) ∘ f = fun c => !isBlank c := by
    funext c
    rw [Function.comp_apply, h]
  rw [removeBlanks, List.filter_map, hcomp, removeBlanks]

end Text

namespace Respelling

variable (r : Respelling)

/-! ## Problems and events -/

/-- The problem of the other spelling. -/
def problem : Problem → Problem
  | .unfinishedExponent t => .unfinishedExponent (r.text t)
  | .constantOverflow source => .constantOverflow (r.text source)
  | .groupOverflow content => .groupOverflow (r.text content)
  | .blankArgument f written => .blankArgument f (r.text written)
  | .argumentCount f count written => .argumentCount f count (r.text written)
  | .strayList t => .strayList (r.text t)
  | .unreadable t => .unreadable (r.text t)
  | p => p

/-- What is done to the other spelling. -/
def event : Event → Event
  | .parameters content => .parameters (r.text content)
  | .group content value => .group (r.text content) value
  | e => e

theorem showsTrace_problem (p : Problem) : (r.problem p).showsTrace = p.showsTrace := by
  cases p <;> rfl

theorem problem_emptyCall (f : MathFunction) (written : Text) :
    r.problem (if written.isEmpty then .missingArgument f else .blankArgument f written) =
      if (r.text written).isEmpty then .missingArgument f
      else .blankArgument f (r.text written) := by
  cases written <;> rfl

theorem problem_unreadable (t : Text) :
    r.problem (if t.head? = some '[' then .strayList t else .unreadable t) =
      if (r.text t).head? = some '[' then .strayList (r.text t) else .unreadable (r.text t) := by
  simp (disch := decide) only [head?_text_eq_some]
  split <;> rfl

/-- A coupling that does not tell the two spellings apart. -/
structure KeptBy [MathLibrary] (c : TextCoupling) : Prop where
  /-- Steps may name their sources in the two spellings. -/
  source : ∀ (e : Event) (source : Text), c.step ⟨e, source⟩ ⟨e, r.text source⟩
  /-- Steps may tell what was done in the two spellings. -/
  event : ∀ (e : Event) (source : Text), c.step ⟨e, source⟩ ⟨r.event e, r.text source⟩
  /-- Problems may be reported in the two spellings. -/
  problem : ∀ p : Problem, p.isForeign = false → c.problem p (r.problem p)
  /-- Dice may be rolled by the operators of the two spellings. -/
  roll : ∀ (loud : Bool) {count faces : Float}, count.isFinite = true → faces.isFinite = true →
    c.CouplesFinite (Dice.roll loud count faces) (Dice.roll (r.loud loud) count faces)

/-! ## Terms -/

open Evaluation Coupling

variable {r} [MathLibrary] {c : TextCoupling}

mutual
/-- The evaluations of a term in both spellings are coupled. -/
theorem couples_evaluate (h : r.KeptBy c) {neutral : Float} (hneutral : neutral.isFinite = true) :
    (t : Term) → c.CouplesFinite (t.evaluate neutral) ((r.term t).evaluate neutral)
  | .absent => couples_pure hneutral
  | .tooDeep => couples_throw fun _ _ hst => c.stop_tooDeep hst
  | .binary (.arithmetic op) source left right => by
    have hop := (Operator.arithmetic op).isFinite_neutral
    exact (couples_evaluate h hop left).bind fun a ha =>
      (couples_evaluate h hop right).bind fun b hb =>
        couples_arithmetic (fun e => h.source e source) op ha hb
  | .binary (.dice loud) source left right => by
    have hop := (Operator.dice loud).isFinite_neutral
    exact (couples_evaluate h hop left).bind fun a ha =>
      (couples_evaluate h hop right).bind fun b hb =>
        h.roll loud ha hb
  | .factorial operand =>
    (couples_evaluate h isFinite_failedValue operand).bind fun _ hx => couples_factorial hx
  | .constant source factor _ tail =>
    (couples_factor (fun e => h.source e source) factor).bind fun _ _ =>
      couples_trace_bind (h.source _ source)
        ((couples_evaluate h isFinite_failedValue tail).bind fun _ _ =>
          couples_checkFinite (h.problem (.constantOverflow source) rfl))
  | .call source factor f written args =>
    (couples_factor (fun e => h.source e source) factor).bind fun x _ =>
      (couples_evaluateAll h args).bind fun xs _ =>
        couples_function (fun e => h.source e source)
          (fun n => h.problem (.argumentCount f n written) rfl) x xs
  | .emptyCall source factor f written => by
    have hproblem := h.problem _ (isForeign_emptyCall f written)
    rw [problem_emptyCall] at hproblem
    exact (couples_factor (fun e => h.source e source) factor).bind fun _ _ => couples_fail hproblem
  | .literal l => couples_literal l
  | .unreadable t => by
    have hproblem := h.problem _ (isForeign_unreadable t)
    rw [problem_unreadable] at hproblem
    exact couples_fail hproblem

/-- The evaluations of arguments in both spellings are coupled. -/
theorem couples_evaluateAll (h : r.KeptBy c) :
    (args : List Term) → c.Couples (fun xs => ∀ x ∈ xs, x.isFinite = true) (Term.evaluateAll args)
      (Term.evaluateAll (r.terms args))
  | [] => couples_pure (by simp)
  | t :: rest =>
    (couples_evaluate h isFinite_failedValue t).bind fun _ hx => (couples_evaluateAll h rest).bind
      fun _ hxs => couples_pure (List.forall_mem_cons.2 ⟨hx, hxs⟩)
end

/-- The evaluations of a text without parentheses in both spellings are coupled. -/
theorem couples_evaluateFlat [Stack] (h : r.KeptBy c) {neutral : Float}
    (hneutral : neutral.isFinite = true) (t : Text) :
    c.CouplesFinite (evaluateFlat neutral t) (evaluateFlat neutral (r.text t)) := by
  unfold evaluateFlat Term.ofText
  rw [read_text]
  exact couples_evaluate h hneutral _

theorem couples_checkExponents (h : r.KeptBy c) (t : Text) :
    c.Couples (fun _ => True) (checkExponents t) (checkExponents (r.text t)) := by
  unfold checkExponents
  rw [hasUnfinishedExponent_text]
  split
  · exact (couples_fail (h.problem (.unfinishedExponent t) rfl)).bind fun _ _ =>
      couples_pure trivial
  · exact couples_pure trivial

end Respelling

/-! ## Texts as values -/

namespace Coupling

open Evaluation

variable [MathLibrary] (c : Coupling) {α β γ δ : Type}

/-- The two evaluations keep the relation between the sessions, and give values with a relation of
their own. -/
def Relates (related : α → β → Prop) (m₁ : Evaluation α) (m₂ : Evaluation β) : Prop :=
  Coupled c.limits₁ c.limits₂ c.rel m₁ m₂ (fun a b s t => related a b ∧ c.rel s t) c.stop

variable {c} {good : α → Prop} {related : α → β → Prop} {related' : γ → δ → Prop}

theorem relates_pure {a : α} {b : β} (h : related a b) : c.Relates related (pure a) (pure b) :=
  Coupled.pure fun _ _ hst => ⟨h, hst⟩

theorem Relates.bind {m₁ : Evaluation α} {m₂ : Evaluation β} {f₁ : α → Evaluation γ}
    {f₂ : β → Evaluation δ} (h : c.Relates related m₁ m₂)
    (hf : ∀ a b, related a b → c.Relates related' (f₁ a) (f₂ b)) :
    c.Relates related' (m₁ >>= f₁) (m₂ >>= f₂) :=
  Coupled.bind h fun a b s t ⟨hab, hst⟩ => hf a b hab s t hst

/-- Evaluations with the same good values are a case of evaluations with related values. -/
theorem Couples.relates {m₁ m₂ : Evaluation α} (h : c.Couples good m₁ m₂) :
    c.Relates (fun a b => a = b ∧ good a) m₁ m₂ :=
  fun s t hst => (h s t hst).mono (fun _ _ _ _ hab => ⟨⟨hab.1, hab.2.1⟩, hab.2.2⟩) fun _ _ _ h => h

theorem Couples.bind_relates {m₁ m₂ : Evaluation α} {f₁ : α → Evaluation γ} {f₂ : α → Evaluation δ}
    (h : c.Couples good m₁ m₂) (hf : ∀ a, good a → c.Relates related' (f₁ a) (f₂ a)) :
    c.Relates related' (m₁ >>= f₁) (m₂ >>= f₂) :=
  h.relates.bind fun a _ ⟨hab, ha⟩ => hab ▸ hf a ha

end Coupling

namespace Respelling

open Evaluation Coupling

/-! ## Groups -/

section

variable (r : Respelling)

/-- The group in its other spelling. -/
def group (g : Group) : Group := ⟨r.text g.before, r.text g.content, r.text g.after⟩

theorem text_group (g : Group) : (r.group g).text = r.text g.text := by
  simp (disch := decide) only [Group.text, group, List.cons_append, List.append_assoc,
    text_append, text_cons, letter_of_isMark]

theorem isMark_of_isDigit {c : Char} (h : c.isDigit = true) : isMark c = true :=
  isMark_of_isDecimal (Text.isDecimal_of_isDigit h)

theorem joinsLeft_letter (c : Char) : Group.joinsLeft (r.letter c) = Group.joinsLeft c := by
  refine apply_letter (fun d hd => ?_) c
  simp only [Group.joinsLeft, Bool.or_eq_true, beq_iff_eq] at hd
  rcases hd with ((hd | rfl) | rfl) | rfl
  · exact isMark_of_isDigit hd
  all_goals decide

theorem joinsRight_letter (c : Char) : Group.joinsRight (r.letter c) = Group.joinsRight c := by
  refine apply_letter (fun d hd => ?_) c
  simp only [Group.joinsRight, Bool.or_eq_true, beq_iff_eq] at hd
  rcases hd with hd | rfl
  · exact isMark_of_isDigit hd
  · decide

theorem starBefore_group (g : Group) : (r.group g).starBefore = g.starBefore := by
  refine Group.starBefore_eq ?_
  rw [group, getLast?_text, Option.any_map]
  exact congrArg (g.before.getLast?.any ·) (funext r.joinsLeft_letter)

theorem starAfter_group (g : Group) : (r.group g).starAfter = g.starAfter := by
  refine Group.starAfter_eq ?_
  rw [group, head?_text, Option.any_map]
  exact congrArg (g.after.head?.any ·) (funext r.joinsRight_letter)

/-- Stars have no other spelling. -/
theorem text_of_subset_star {t : Text} (h : t ⊆ ['*']) : r.text t = t := by
  refine (List.map_congr_left fun c hc => ?_).trans (List.map_id t)
  rw [List.mem_singleton.1 (h hc), r.letter_star, id]

/-- What is written for a finite number has no other spelling. -/
theorem text_ofFloat {x : Float} (h : x.isFinite = true) :
    r.text (Literal.ofFloat x) = Literal.ofFloat x := by
  obtain ⟨l, hl, htext, -⟩ := Literal.exists_ofFloat h
  rw [← htext, text_literal r hl]

theorem contains_text {mark : Char} (h : isMark mark = true) (t : Text) :
    (r.text t).contains mark = t.contains mark := by
  induction t with
  | nil => rfl
  | cons c t ih =>
    rw [text_cons, List.contains_cons, List.contains_cons, ih, Bool.beq_comm, letter_beq h,
      Bool.beq_comm]

theorem cutAtOpening_text (content t : Text) :
    cutAtOpening (r.text content) (r.text t) =
      (cutAtOpening content t).map (Prod.map r.text r.text) := by
  induction t generalizing content with
  | nil => rfl
  | cons c before ih =>
    have hcontent : r.letter c :: r.text content = r.text (c :: content) := rfl
    rw [text_cons, cutAtOpening, cutAtOpening, hcontent, ih]
    simp (disch := decide) only [letter_eq_iff]
    split <;> rfl

end

variable {r : Respelling} [MathLibrary] [Stack] {c : TextCoupling}

/-- A group is replaced with the same text in both spellings. -/
theorem relates_replacement (h : r.KeptBy c) (g : Group) :
    c.Relates (fun new new' => new' = r.text new) (replacement (evaluateFlat 1) g)
      (replacement (evaluateFlat 1) (r.group g)) := by
  unfold replacement replacementIn
  rw [text_group, starBefore_group, starAfter_group, group, hasComma_text, semicolons_text]
  split
  · refine (couples_trace (h.event (.parameters g.content) g.text)).bind_relates fun _ _ => ?_
    refine relates_pure ?_
    simp (disch := decide) only [List.cons_append, text_cons, text_append, letter_of_isMark,
      r.text_of_subset_star g.subset_starAfter]
  · refine (couples_checkExponents h g.content).bind_relates fun _ _ => ?_
    refine (couples_evaluateFlat h isFinite_failedValue g.content).bind_relates fun x hx => ?_
    refine (couples_checkFinite_of_isFinite hx _ _).bind_relates fun y hy => ?_
    refine (couples_trace (h.event (.group g.content y) g.text)).bind_relates fun _ _ => ?_
    refine relates_pure ?_
    rw [text_append, text_append, r.text_ofFloat hy, r.text_of_subset_star g.subset_starBefore,
      r.text_of_subset_star g.subset_starAfter]

/-- The groups of a text are replaced alike in both spellings. -/
theorem relates_replaceGroups (h : r.KeptBy c) (before after : Text) :
    c.Relates (fun flat flat' => flat' = flat.map r.text) (replaceGroups before after)
      (replaceGroups (r.text before) (r.text after)) := by
  induction after generalizing before with
  | nil =>
    rw [text_nil, replaceGroups_def_nil, replaceGroups_def_nil, contains_text r (by decide)]
    split
    · exact (couples_fail (c.problem_refl _ rfl)).bind_relates fun _ _ => relates_pure rfl
    · exact relates_pure (congrArg some (r.text_reverse before).symm)
  | cons d after ih =>
    have hcut := r.cutAtOpening_text [] before
    rw [text_nil] at hcut
    rw [text_cons, replaceGroups_def_cons, replaceGroups_def_cons, hcut]
    simp (disch := decide) only [letter_eq_iff]
    split
    · cases cutAtOpening [] before with
      | none => exact (couples_fail (c.problem_refl _ rfl)).bind_relates fun _ _ => relates_pure rfl
      | some cut =>
        obtain ⟨content, start⟩ := cut
        have hgroup := relates_replacement h ⟨start.reverse, content, after⟩
        rw [group, text_reverse] at hgroup
        refine hgroup.bind fun new new' hnew => ?_
        have hnext := ih (new.reverse ++ start)
        rw [text_append, text_reverse] at hnext
        rw [hnew]
        exact hnext
    · exact ih (d :: before)

/-- The evaluations of a text in both spellings are coupled. -/
theorem couples_evaluateNormalized (h : r.KeptBy c) (t : Text) :
    c.CouplesFinite (evaluateNormalized t) (evaluateNormalized (r.text t)) := by
  rw [evaluateNormalized_def, evaluateNormalized_def]
  refine Coupled.bind (relates_replaceGroups h [] t) ?_
  rintro flat _ s s' ⟨rfl, hss⟩
  cases flat with
  | none =>
    have hfailed : c.CouplesFinite (pure failedValue) (pure failedValue) :=
      couples_pure isFinite_failedValue
    exact hfailed s s' hss
  | some flat =>
    have hflat := (couples_checkExponents h flat).bind fun _ _ =>
      couples_evaluateFlat h isFinite_failedValue flat
    exact hflat s s' hss

end Respelling

end Reckoner
