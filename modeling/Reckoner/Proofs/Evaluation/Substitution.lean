import Mathlib
import Reckoner.Proofs.Evaluation.Group
import Reckoner.Proofs.Evaluation.Untraced
import Reckoner.Proofs.Expression.Balance

/-!
# Groups of equal value

A group matters by its value only: in every text, a group may be replaced with the literal of its
value, or with another group of an equal value, and but for the trace nothing changes
(`evaluate_group`).  The groups in front of it do not see it, its inner groups do not see what is
around it (`TextCoupling.couples_nested`), and from then on both texts are the same.
-/

namespace Reckoner

/-- What a group is replaced with has no commas, if its inner groups were replaced. -/
theorem Group.Becomes.resolved {g : Group} {new : Text} {commas : Bool} (h : g.Becomes new)
    (hcontent : g.content.Resolved commas) (commas' : Bool) : new.Resolved commas' := by
  have hstar : Text.Resolved commas' ['*'] :=
    Text.resolved_singleton (by decide) (by decide) fun h => absurd h (by decide)
  have hbefore : g.starBefore.Resolved commas' := by
    unfold starBefore
    split
    · exact hstar
    · exact Text.resolved_nil _
  have hafter : g.starAfter.Resolved commas' := by
    unfold starAfter
    split
    · exact hstar
    · exact Text.resolved_nil _
  rcases h with ⟨-, rfl⟩ | ⟨-, x, hx, rfl⟩
  · have hlist := (hcontent.list commas').append hafter
    rwa [List.append_assoc, List.singleton_append] at hlist
  · obtain ⟨l, hl, htext, -⟩ := Literal.exists_ofFloat hx
    rw [← htext]
    exact (hbefore.append (Text.resolved_literal hl _)).append hafter

/-! ## Inner groups -/

namespace TextCoupling

open Evaluation Coupling

variable [MathLibrary] {limits : Limits}

theorem diceIn_untraced (t : Text) : t.DiceIn (untraced limits).dice := fun _ _ _ _ _ => trivial

variable [Stack]

/-- The inner groups of a text do not see what is around the text, but for the characters next to
it.  The induction is on the text, while what is around it changes and both runs go on with the
text that is left of it. -/
theorem couples_nested {α : Type} {commas : Bool} {t : Text} (ht : t.Nested commas)
    {before before' after after' : Text} {f f' : Option Text → Evaluation α} {good : α → Prop}
    (hbefore : before.head?.any Group.joinsLeft = before'.head?.any Group.joinsLeft)
    (hafter : after.head?.any Group.joinsRight = after'.head?.any Group.joinsRight)
    (h : ∀ flat : Text, flat.Resolved commas →
      (untraced limits).Couples good (replaceGroups (flat.reverse ++ before) after >>= f)
        (replaceGroups (flat.reverse ++ before') after' >>= f')) :
    (untraced limits).Couples good (replaceGroups before (t ++ after) >>= f)
      (replaceGroups before' (t ++ after') >>= f') := by
  induction ht generalizing before before' after after' with
  | nil => exact h [] (Text.resolved_nil _)
  | @cons commas c t hparenthesis hbracket hcomma ht ih =>
    rw [List.cons_append, List.cons_append, replaceGroups_cons hparenthesis.2,
      replaceGroups_cons hparenthesis.2]
    refine ih rfl hafter ?_
    intro flat hflat
    have hc := Text.resolved_singleton hparenthesis hbracket hcomma
    simpa using h (c :: flat) (hc.append hflat)
  | @group commas s t hs ht ihs iht =>
    rw [List.cons_append, List.cons_append, List.append_assoc, List.append_assoc,
      replaceGroups_cons (by decide), replaceGroups_cons (by decide)]
    refine ihs rfl rfl ?_
    intro content hcontent
    rw [List.cons_append, List.cons_append, replaceGroups_close hcontent.opening,
      replaceGroups_close hcontent.opening, bind_assoc, bind_assoc]
    have hgroup : (untraced limits).Couples (Group.Becomes ⟨before.reverse, content, t ++ after⟩)
        (replacement (evaluateFlat 1) ⟨before.reverse, content, t ++ after⟩)
        (replacement (evaluateFlat 1) ⟨before'.reverse, content, t ++ after'⟩) :=
      couples_replacement rfl (Group.starBefore_eq (by simpa using hbefore))
        (Group.starAfter_eq (Text.any_head?_append hafter t)) (fun _ => trivial)
        (diceIn_untraced content)
    refine hgroup.bind ?_
    intro new hnew
    refine iht (Text.any_head?_append hbefore _) hafter ?_
    intro flat hflat
    simpa using h (new ++ flat) ((hnew.resolved hcontent commas).append hflat)

/-- The groups of a balanced text leave a text without groups. -/
theorem couples_resolve_nested {commas : Bool} {t : Text} (ht : t.Nested commas) :
    (untraced limits).Couples (fun o => ∃ flat : Text, o = some flat ∧ flat.Resolved commas)
      (resolve t) (resolve t) := by
  have hflat : ∀ flat : Text, flat.Resolved commas →
      (untraced limits).Couples (fun o => ∃ flat : Text, o = some flat ∧ flat.Resolved commas)
        (replaceGroups (flat.reverse ++ []) [] >>= pure)
        (replaceGroups (flat.reverse ++ []) [] >>= pure) := by
    intro flat hflat
    have hopening : '(' ∉ flat.reverse := by simpa using hflat.opening
    rw [List.append_nil, replaceGroups_nil hopening, List.reverse_reverse]
    exact couples_pure ⟨flat, rfl, hflat⟩
  have h := couples_nested ht rfl rfl hflat
  rwa [List.append_nil, bind_pure] at h

end TextCoupling

/-! ## The value of a group -/

/-- A text without dice that may stand in a group, and that is evaluated to a number without a
problem. -/
structure HasValue [MathLibrary] [Stack] (content : Text) (x : Float) : Prop where
  /-- It may stand in a group. -/
  isGroupContent : content.IsGroupContent
  /-- There is no quiet roll. -/
  quiet : 'd' ∉ content
  /-- There is no loud roll. -/
  loud : 'D' ∉ content
  /-- Under some limits and with some dice, which do not matter, it has the value. -/
  value : ∃ limits dice report, evaluate limits dice content = .ok ⟨x, report⟩ ∧
    report.failed = false

namespace Evaluation

variable [MathLibrary] [Stack]

/-- An expression without a problem is evaluated as it is normalized. -/
theorem runOn_of_evaluate {limits : Limits} {dice : DiceSource} {e : Text} {x : Float}
    {report : Report} (h : evaluate limits dice e = .ok ⟨x, report⟩) (hok : report.failed = false) :
    ∃ s, (evaluateNormalized (normalize e)).runOn limits ⟨{}, dice⟩ = .ok x s ∧
      s.report.failed = false := by
  obtain ⟨s, hrun, rfl⟩ := exists_runOn_of_evaluate h
  rcases evaluateExpression_cases limits ⟨{}, dice⟩ e with ⟨y, t, hnormalized, hresult⟩ |
    ⟨t, -, hresult⟩ | ⟨halt, t, -, hresult⟩
  · cases hresult.symm.trans hrun
    exact ⟨s, hnormalized, hok⟩
  · cases hresult.symm.trans hrun
    exact absurd hok (by simp [Session.addProblem, Report.addProblem])
  · cases hresult.symm.trans hrun

/-- Wherever it is evaluated, a text with a value has that value and does nothing else. -/
theorem runOn_of_hasValue {content : Text} {x : Float} (h : HasValue content x) (limits : Limits)
    (t : Session) : x.isFinite = true ∧
      ∃ t', (evaluateNormalized (normalize content)).runOn limits t = .ok x t' ∧
        t'.untraced = t.untraced := by
  obtain ⟨limits', dice, report, hvalue, hok⟩ := h.value
  obtain ⟨s, hrun, hs⟩ := runOn_of_evaluate hvalue hok
  have hdice : Text.DiceIn (TextCoupling.quiet limits' limits t).dice (normalize content) :=
    Text.diceIn_normalize (Text.diceIn_of_not_mem h.quiet h.loud)
  have hcouple := TextCoupling.couples_evaluateNormalized
    (TextCoupling.couples_resolve hdice) ⟨{}, dice⟩ t (.inr rfl)
  rcases hcouple.cases with ⟨a, b, s', t', h₁, h₂, rfl, hfinite, hrel⟩ | ⟨halt, s', t', h₁, -⟩
  · cases hrun.symm.trans h₁
    exact ⟨hfinite, t', h₂, hrel.resolve_left (by simp [hs])⟩
  · cases hrun.symm.trans h₁

/-- A group after its inner groups were replaced: it is replaced itself, and the text goes on. -/
def replaceContent (before after : Text) : Option Text → Evaluation (Option Text)
  | none => return none
  | some flat => do
    let new ← replacement (evaluateFlat 1) ⟨before.reverse, flat, after⟩
    replaceGroups (new.reverse ++ before) after

/-- Replacing a group is replacing its inner groups, as if nothing was around them, and then the
group itself. -/
theorem couples_group {limits : Limits} {commas : Bool} {t : Text} (ht : t.Nested commas)
    (before after : Text) :
    (TextCoupling.untraced limits).Couples
      (fun flat => ∀ t ∈ flat, Text.DiceIn (TextCoupling.untraced limits).dice t)
      (resolve t >>= replaceContent before after)
      (replaceGroups ('(' :: before) (t ++ ')' :: after)) := by
  have hflat : ∀ flat : Text, flat.Resolved commas →
      (TextCoupling.untraced limits).Couples
        (fun flat => ∀ t ∈ flat, Text.DiceIn (TextCoupling.untraced limits).dice t)
        (replaceGroups (flat.reverse ++ []) [] >>= replaceContent before after)
        (replaceGroups (flat.reverse ++ '(' :: before) (')' :: after) >>= pure) := by
    intro flat hresolved
    have hopening : '(' ∉ flat.reverse := by simpa using hresolved.opening
    rw [List.append_nil, replaceGroups_nil hopening, List.reverse_reverse, pure_bind, bind_pure,
      replaceGroups_close hresolved.opening]
    exact (TextCoupling.couples_replacement rfl rfl rfl (fun _ => trivial)
      (TextCoupling.diceIn_untraced _)).bind fun new _ => TextCoupling.couples_replaceGroups
        (TextCoupling.diceIn_untraced _) (TextCoupling.diceIn_untraced _)
  have hopening : ([] : Text).head?.any Group.joinsLeft =
      ('(' :: before).head?.any Group.joinsLeft := rfl
  have hclosing : ([] : Text).head?.any Group.joinsRight =
      (')' :: after).head?.any Group.joinsRight := rfl
  have h := TextCoupling.couples_nested ht hopening hclosing hflat
  rwa [List.append_nil, bind_pure] at h

/-- A group with a value is replaced with the literal of the value. -/
theorem runOn_replaceContent {content : Text} {x : Float} (h : HasValue content x)
    (limits : Limits) (before after : Text) (s : Session) :
    ∃ t, (resolve (normalize content) >>= replaceContent before after).runOn limits s =
        (replaceGroups ((Group.starBefore ⟨before.reverse, content, after⟩ ++ Literal.ofFloat x ++
          Group.starAfter ⟨before.reverse, content, after⟩).reverse ++ before) after).runOn
            limits t ∧
      t.untraced = s.untraced := by
  obtain ⟨hfinite, s', hrun, hs'⟩ := runOn_of_hasValue h limits s
  have hnested := h.isGroupContent.normalize.nested
  have hresolve := TextCoupling.couples_untraced_iff.1
    (@TextCoupling.couples_resolve_nested _ limits _ _ _ hnested) s s rfl
  rw [evaluateNormalized_def] at hrun
  cases hflat : (resolve (normalize content)).runOn limits s with
  | error halt s₁ =>
    rw [runOn_bind_of_error hflat] at hrun
    cases hrun
  | ok o s₁ =>
    obtain ⟨flat, rfl, hresolved⟩ := hresolve.1 o s₁ hflat
    rw [runOn_bind_of_ok hflat] at hrun ⊢
    have hcomma := ArgumentList.hasComma_eq_false (hresolved.comma rfl) 0
    have hcheck : checkFinite x (.groupOverflow flat) = pure x := if_pos hfinite
    refine ⟨s'.addStep limits ⟨.group flat x, Group.text ⟨before.reverse, flat, after⟩⟩, ?_, ?_⟩
    · rw [replaceContent, replacement_of_not_comma _ hcomma, bind_assoc, runOn_bind_of_ok hrun,
        hcheck]
      rfl
    · rw [Session.untraced_addStep, hs']

/-! ## Groups in a text -/

/-- Groups of equal value are replaced alike. -/
theorem couples_groups {content content' : Text} {x x' : Float} (h : HasValue content x)
    (h' : HasValue content' x') (hx : (x == x') = true) (limits : Limits) (before after : Text) :
    (TextCoupling.untraced limits).Couples
      (fun flat => ∀ t ∈ flat, Text.DiceIn (TextCoupling.untraced limits).dice t)
      (replaceGroups ('(' :: before) (normalize content ++ ')' :: after))
      (replaceGroups ('(' :: before) (normalize content' ++ ')' :: after)) := by
  refine TextCoupling.couples_untraced_iff.2 fun s t hst =>
    ⟨fun _ _ _ u _ => TextCoupling.diceIn_untraced u, ?_⟩
  have hgroup := TextCoupling.couples_untraced_iff.1 (@couples_group _ _ limits _ _
    h.isGroupContent.normalize.nested before after) s s rfl
  have hgroup' := TextCoupling.couples_untraced_iff.1 (@couples_group _ _ limits _ _
    h'.isGroupContent.normalize.nested before after) t t rfl
  obtain ⟨s', hrun, hs'⟩ := runOn_replaceContent h limits before after s
  obtain ⟨t', hrun', ht'⟩ := runOn_replaceContent h' limits before after t
  have hliteral : Literal.ofFloat x = Literal.ofFloat x' :=
    Literal.ofFloat_eq_of_beq (runOn_of_hasValue h limits s).1 (runOn_of_hasValue h' limits t).1 hx
  have hstart : s'.untraced = t'.untraced := by rw [hs', ht', hst]
  -- from here on, both runs replace the groups of the same text
  have hrest := TextCoupling.couples_untraced_iff.1 (@TextCoupling.couples_replaceGroups _ _
    (.untraced limits) ((Group.starBefore ⟨before.reverse, content, after⟩ ++ Literal.ofFloat x ++
      Group.starAfter ⟨before.reverse, content, after⟩).reverse ++ before) after
    (TextCoupling.diceIn_untraced _) (TextCoupling.diceIn_untraced _)) s' t' hstart
  rw [← hgroup.2, ← hgroup'.2, hrun, hrun', hrest.2, hliteral]
  rfl

/-- Expressions have the same outcome, but for the trace, if their evaluations are coupled. -/
theorem untraced_evaluate_of_couples {limits : Limits} {e e' : Text}
    (h : (TextCoupling.untraced limits).CouplesFinite (evaluateNormalized (normalize e))
      (evaluateNormalized (normalize e'))) (dice : DiceSource) :
    (evaluate limits dice e).map Outcome.untraced =
      (evaluate limits dice e').map Outcome.untraced := by
  have hrun := TextCoupling.coupled_evaluateExpression h ⟨{}, dice⟩ ⟨{}, dice⟩ rfl
  refine map_untraced_evaluate (agree_untraced_iff.1 (hrun.mono (fun _ _ _ _ h => h) ?_)).2
  exact fun _ _ _ h => h.2

/-- Expressions that differ in what follows a common beginning have the same outcome, but for the
trace, if the groups of what follows are replaced alike after every beginning. -/
theorem untraced_evaluate_append {limits : Limits} {e e' left rest rest' : Text}
    (he : normalize e = left ++ rest) (he' : normalize e' = left ++ rest')
    (hhead : rest.head?.any Group.joinsRight = rest'.head?.any Group.joinsRight)
    (h : ∀ before, (TextCoupling.untraced limits).Couples
      (fun flat => ∀ t ∈ flat, Text.DiceIn (TextCoupling.untraced limits).dice t)
      (replaceGroups before rest) (replaceGroups before rest')) (dice : DiceSource) :
    (evaluate limits dice e).map Outcome.untraced =
      (evaluate limits dice e').map Outcome.untraced := by
  have hresolve : (TextCoupling.untraced limits).Couples
      (fun flat => ∀ t ∈ flat, Text.DiceIn (TextCoupling.untraced limits).dice t)
      (resolve (normalize e)) (resolve (normalize e')) := by
    have hnone : ∀ t ∈ (none : Option Text), Text.DiceIn (TextCoupling.untraced limits).dice t := by
      simp
    rw [he, he']
    exact TextCoupling.couples_append hnone hhead (fun _ _ => trivial) (fun before _ => h before)
      (TextCoupling.diceIn_untraced _) (TextCoupling.diceIn_untraced _)
  exact untraced_evaluate_of_couples (TextCoupling.couples_evaluateNormalized hresolve) dice

/-- In every text, groups of equal value have the same outcome, but for the trace. -/
theorem untraced_evaluate_groups {content content' : Text} {x x' : Float} (h : HasValue content x)
    (h' : HasValue content' x') (hx : (x == x') = true) (limits : Limits) (dice : DiceSource)
    (left right : Text) :
    (evaluate limits dice (left ++ '(' :: (content ++ ')' :: right))).map Outcome.untraced =
      (evaluate limits dice (left ++ '(' :: (content' ++ ')' :: right))).map Outcome.untraced := by
  have hnormalize : ∀ t, normalize (left ++ '(' :: (t ++ ')' :: right)) =
      normalize left ++ '(' :: (normalize t ++ ')' :: normalize right) := by
    intro t
    rw [normalize_append_cons (by decide) (by decide),
      normalize_append_cons (by decide) (by decide)]
  refine untraced_evaluate_append (hnormalize content) (hnormalize content') rfl
    (fun before => ?_) dice
  rw [replaceGroups_cons (by decide), replaceGroups_cons (by decide)]
  exact couples_groups h h' hx limits before (normalize right)

end Evaluation

/-! ## Literals -/

section

variable [MathLibrary] [Stack] {content : Text} {x : Float}

/-- A value is finite. -/
theorem HasValue.isFinite (h : HasValue content x) : x.isFinite = true :=
  (Evaluation.runOn_of_hasValue h {} ⟨{}, .ofSeed 0⟩).1

/-- The literal of a finite number has its value, but for the sign of zero. -/
theorem hasValue_ofFloat (h : x.isFinite = true) :
    HasValue (Literal.ofFloat x) (Number.unsigned x) := by
  obtain ⟨l, hl, htext, hfinite, hvalue⟩ := Literal.exists_ofFloat h
  rw [← htext]
  obtain ⟨s, hrun, hok⟩ : ∃ s, (Evaluation.evaluateNormalized (normalize l.text)).runOn {}
      ⟨{}, .ofSeed 0⟩ = .ok (Number.unsigned x) s ∧ s.report.failed = false := by
    rw [Evaluation.evaluateNormalized_literal hl, Evaluation.literal, ← hvalue]
    simp only [hfinite, Bool.not_true]
    exact ⟨_, rfl, rfl⟩
  have hevaluate : evaluate {} (.ofSeed 0) l.text = .ok ⟨Number.unsigned x, s.report⟩ := by
    rw [evaluate, Evaluation.evaluateExpression_def, Evaluation.runOn_tryCatch, hrun]
  exact {
    isGroupContent := (Text.isFlat_literal hl).isGroupContent (Literal.not_mem_text hl (by decide))
      (Literal.not_mem_text hl (by decide))
    quiet := Literal.not_mem_text hl (by decide)
    loud := Literal.not_mem_text hl (by decide)
    value := ⟨{}, .ofSeed 0, s.report, hevaluate, hok⟩ }

/-- In every text, whatever stands around it, a group with a value may be replaced with the literal
of the value, or with a group of an equal value: but for the trace, the outcome is the same. -/
theorem evaluate_group (h : HasValue content x) (limits : Limits) (dice : DiceSource)
    (left right : Text) :
    (evaluate limits dice (left ++ '(' :: (content ++ ')' :: right))).map Outcome.untraced =
        (evaluate limits dice (left ++ '(' :: (Literal.ofFloat x ++ ')' :: right))).map
          Outcome.untraced ∧
      ∀ content' x', HasValue content' x' → (x == x') = true →
        (evaluate limits dice (left ++ '(' :: (content ++ ')' :: right))).map Outcome.untraced =
          (evaluate limits dice (left ++ '(' :: (content' ++ ')' :: right))).map Outcome.untraced :=
  ⟨Evaluation.untraced_evaluate_groups h (hasValue_ofFloat h.isFinite) (Number.beq_unsigned
    h.isFinite) limits dice left right, fun _ _ h' hx =>
    Evaluation.untraced_evaluate_groups h h' hx limits dice left right⟩

end

/-- Whether a text is evaluated to a number without a problem. -/
def evaluatesTo (content : Text) (x : Float) : Bool :=
  match evaluate {} (.ofSeed 0) content with
  | .ok outcome => decide (outcome.value = x) && !outcome.report.failed
  | .error _ => false

/-- A closed text has a value if its evaluation says so. -/
theorem hasValue_of_evaluatesTo {content : Text} {x : Float} (hcontent : content.IsGroupContent)
    (hquiet : 'd' ∉ content) (hloud : 'D' ∉ content) (h : evaluatesTo content x = true) :
    HasValue content x := by
  refine ⟨hcontent, hquiet, hloud, {}, .ofSeed 0, ?_⟩
  unfold evaluatesTo at h
  split at h
  · rename_i outcome heq
    rw [Bool.and_eq_true, decide_eq_true_eq, Bool.not_eq_true'] at h
    obtain ⟨rfl, hok⟩ := h
    exact ⟨outcome.report, heq, hok⟩
  · cases h

theorem evaluate_group_sum :
    HasValue ['1', '+', '2'] 3 ∧
      (evaluate {} (.ofSeed 1) ['2', '^', '(', '1', '+', '2', ')', '!', ')', '[']).map
          Outcome.untraced =
        (evaluate {} (.ofSeed 1) ['2', '^', '(', '3', ')', '!', ')', '[']).map
          Outcome.untraced := by
  have hsum : HasValue ['1', '+', '2'] 3 :=
    hasValue_of_evaluatesTo ⟨by decide, by decide, by decide, by decide⟩ (by decide) (by decide)
      (by decide +kernel)
  have hvalue : HasValue ['3'] 3 :=
    hasValue_of_evaluatesTo ⟨by decide, by decide, by decide, by decide⟩ (by decide) (by decide)
      (by decide +kernel)
  have h := (evaluate_group hsum {} (.ofSeed 1) ['2', '^'] ['!', ')', '[']).2 ['3'] 3 hvalue
    (by decide)
  simp only [List.cons_append, List.nil_append] at h
  exact ⟨hsum, h⟩

end Reckoner
