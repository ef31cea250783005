import Mathlib
import Reckoner.Proofs.Evaluation.Coupling
import Reckoner.Proofs.Expression.Dice

/-!
# Evaluations of one text

Whatever relation a coupling of texts keeps, two evaluations of the same term, text or expression
keep it, as long as the text has no other dice operators than the coupling allows.  They give the
same value or stop together for the same cause.
-/

namespace Reckoner

theorem Operator.isFinite_neutral (op : Operator) : op.neutral.isFinite = true := by
  cases op with
  | dice loud => exact Evaluation.isFinite_failedValue
  | arithmetic op => cases op <;> rfl

namespace Evaluation

theorem isForeign_emptyCall (f : MathFunction) (written : Text) :
    Problem.isForeign (if written.isEmpty then .missingArgument f else .blankArgument f written) =
      false := by
  split <;> rfl

theorem isForeign_unreadable (t : Text) :
    Problem.isForeign (if t.head? = some '[' then .strayList t else .unreadable t) = false := by
  split <;> rfl

end Evaluation

namespace TextCoupling

open Evaluation Coupling

variable [MathLibrary] {c : TextCoupling}

/-! ## Terms -/

mutual
/-- Two evaluations of one term are coupled. -/
theorem couples_evaluate {neutral : Float} (hneutral : neutral.isFinite = true) :
    (t : Term) → t.DiceIn c.dice → c.CouplesFinite (t.evaluate neutral) (t.evaluate neutral)
  | .absent, _ => couples_pure hneutral
  | .tooDeep, _ => couples_throw fun _ _ hst => c.stop_tooDeep hst
  | .binary op _ left right, h => by
    obtain ⟨hop, hleft, hright⟩ := h
    exact (couples_evaluate op.isFinite_neutral left hleft).bind fun a ha =>
      (couples_evaluate op.isFinite_neutral right hright).bind fun b hb =>
        couples_operator (fun _ => c.step_refl _) hop ha hb
  | .factorial operand, h =>
    (couples_evaluate isFinite_failedValue operand h).bind fun _ hx => couples_factorial hx
  | .constant _ factor _ tail, h =>
    (couples_factor (fun _ => c.step_refl _) factor).bind fun _ _ =>
      couples_trace_bind (c.step_refl _)
        ((couples_evaluate isFinite_failedValue tail h).bind fun _ _ =>
          couples_checkFinite (c.problem_refl _ rfl))
  | .call _ factor _ _ args, h =>
    (couples_factor (fun _ => c.step_refl _) factor).bind fun x _ =>
      (couples_evaluateAll args h).bind fun xs _ =>
        couples_function (fun _ => c.step_refl _) (fun _ => c.problem_refl _ rfl) x xs
  | .emptyCall _ factor f written, _ =>
    (couples_factor (fun _ => c.step_refl _) factor).bind fun _ _ =>
      couples_fail (c.problem_refl _ (isForeign_emptyCall f written))
  | .literal l, _ => couples_literal l
  | .unreadable t, _ => couples_fail (c.problem_refl _ (isForeign_unreadable t))

/-- Two evaluations of the same arguments are coupled. -/
theorem couples_evaluateAll :
    (args : List Term) → Term.AllDiceIn c.dice args →
      c.Couples (fun xs => ∀ x ∈ xs, x.isFinite = true) (Term.evaluateAll args)
        (Term.evaluateAll args)
  | [], _ => couples_pure (by simp)
  | t :: rest, h =>
    (couples_evaluate isFinite_failedValue t h.1).bind fun _ hx =>
      (couples_evaluateAll rest h.2).bind fun _ hxs =>
        couples_pure (List.forall_mem_cons.2 ⟨hx, hxs⟩)
end

/-- Two evaluations of one text without parentheses are coupled. -/
theorem couples_evaluateFlat [Stack] {neutral : Float} (hneutral : neutral.isFinite = true)
    {t : Text} (h : t.DiceIn c.dice) :
    c.CouplesFinite (evaluateFlat neutral t) (evaluateFlat neutral t) :=
  couples_evaluate hneutral _ (Term.diceIn_read _ _ h)

/-! ## Groups -/

theorem couples_checkExponents (t : Text) :
    c.Couples (fun _ => True) (checkExponents t) (checkExponents t) := by
  unfold checkExponents
  split
  · exact (couples_fail (c.problem_refl _ rfl)).bind fun _ _ => couples_pure trivial
  · exact couples_pure trivial

end TextCoupling

namespace Evaluation

theorem text_of_cutAtOpening {content t content' before : Text}
    (h : cutAtOpening content t = some (content', before)) :
    t.reverse ++ content = before.reverse ++ '(' :: content' := by
  induction t generalizing content with
  | nil => exact absurd h (by simp [cutAtOpening])
  | cons c t ih =>
    rw [cutAtOpening] at h
    split at h
    · rename_i hc
      cases h
      simp [hc]
    · rw [← ih h]
      simp

/-- The content of a group begins at the last opening parenthesis before it. -/
theorem reverse_of_cutAtOpening {before content start : Text}
    (h : cutAtOpening [] before = some (content, start)) :
    before.reverse = start.reverse ++ '(' :: content := by
  rw [← text_of_cutAtOpening h, List.append_nil]

/-- A group that is found in a text is a group of the text. -/
theorem group_text_of_cutAtOpening {before content start : Text}
    (h : cutAtOpening [] before = some (content, start)) (after : Text) :
    (Group.mk start.reverse content after).text = before.reverse ++ ')' :: after := by
  rw [reverse_of_cutAtOpening h]
  simp [Group.text]

/-- What is done after the groups of an expression are replaced. -/
def finish [MathLibrary] [Stack] : Option Text → Evaluation Float
  | none => return failedValue
  | some flat => do
    checkExponents flat
    evaluateFlat 1 flat

theorem evaluateNormalized_eq [MathLibrary] [Stack] (t : Text) :
    evaluateNormalized t = resolve t >>= finish := by
  refine bind_congr fun o => ?_
  cases o <;> rfl

end Evaluation

namespace Text

variable {dice : Bool → Prop}

theorem diceIn_semicolons {t : Text} {depth : Int} (h : DiceIn dice t) :
    DiceIn dice (ArgumentList.semicolons depth t) := by
  intro c hc tier loud hop
  rcases ArgumentList.mem_semicolons hc with rfl | hc
  · exact absurd (eq_of_operator?_dice hop) (by decide)
  · exact h c hc tier loud hop

theorem diceIn_normalize {t : Text} (h : DiceIn dice t) : DiceIn dice (normalize t) := by
  have hcaret : ∀ {s : Text}, DiceIn dice s → DiceIn dice (caretForDoubleStar s) := by
    intro s hs
    induction s using caretForDoubleStar.induct with
    | case1 rest ih =>
      rw [caretForDoubleStar]
      refine diceIn_cons.2 ⟨fun tier loud hop => ?_, ih (hs.mono (by simp))⟩
      exact absurd (eq_of_operator?_dice hop) (by decide)
    | case2 c rest hne ih =>
      rw [caretForDoubleStar.eq_2 _ _ hne]
      exact diceIn_cons.2 ⟨(diceIn_cons.1 hs).1, ih (diceIn_cons.1 hs).2⟩
    | case3 => exact hs
  exact hcaret (h.mono fun c hc => (List.mem_filter.1 hc).1)

end Text

/-- What is put before two texts hides a difference between their first characters. -/
theorem Text.any_head?_append {p : Char → Bool} {s s' : Text}
    (h : s.head?.any p = s'.head?.any p) (t : Text) :
    (t ++ s).head?.any p = (t ++ s').head?.any p := by
  cases t with
  | nil => exact h
  | cons c t => rfl

namespace Group

/-- What a group may be replaced with: a list if it has commas, and a literal otherwise. -/
def Becomes (g : Group) (new : Text) : Prop :=
  (ArgumentList.hasComma 0 g.content = true ∧
      new = '[' :: ArgumentList.semicolons 0 g.content ++ ']' :: g.starAfter) ∨
    ArgumentList.hasComma 0 g.content = false ∧
      ∃ x : Float, x.isFinite = true ∧ new = g.starBefore ++ Literal.ofFloat x ++ g.starAfter

theorem subset_starBefore (g : Group) : g.starBefore ⊆ ['*'] := by
  unfold starBefore
  split <;> simp

theorem subset_starAfter (g : Group) : g.starAfter ⊆ ['*'] := by
  unfold starAfter
  split <;> simp

theorem starBefore_eq {g g' : Group}
    (h : g.before.getLast?.any joinsLeft = g'.before.getLast?.any joinsLeft) :
    g.starBefore = g'.starBefore := by
  rw [starBefore, starBefore, h]

theorem starAfter_eq {g g' : Group}
    (h : g.after.head?.any joinsRight = g'.after.head?.any joinsRight) :
    g.starAfter = g'.starAfter := by
  rw [starAfter, starAfter, h]

/-- A group has no dice operator after it is replaced that it did not have before. -/
theorem Becomes.diceIn {g : Group} {new : Text} {dice : Bool → Prop} (h : g.Becomes new)
    (hcontent : g.content.DiceIn dice) : new.DiceIn dice := by
  have hsigns : Text.DiceIn dice ['*', '[', ']'] := Text.diceIn_of_not_mem (by decide) (by decide)
  have hafter : g.starAfter.DiceIn dice :=
    hsigns.mono (List.Subset.trans g.subset_starAfter (by simp))
  rcases h with ⟨-, rfl⟩ | ⟨-, x, hx, rfl⟩
  · refine Text.diceIn_append.2 ⟨?_, Text.diceIn_cons.2 ⟨hsigns ']' (by simp), hafter⟩⟩
    exact Text.diceIn_cons.2 ⟨hsigns '[' (by simp), Text.diceIn_semicolons hcontent⟩
  · obtain ⟨l, hl, htext, -⟩ := Literal.exists_ofFloat hx
    rw [← htext]
    refine Text.diceIn_append.2 ⟨Text.diceIn_append.2 ⟨?_, Text.diceIn_literal hl⟩, hafter⟩
    exact hsigns.mono (List.Subset.trans g.subset_starBefore (by simp))

end Group

namespace TextCoupling

open Evaluation Coupling

variable [MathLibrary] [Stack] {c : TextCoupling}

omit [Stack] in
/-- Two replacements of the same content are coupled, wherever it stands. -/
theorem couples_replacementIn {value : Text → Evaluation Float}
    {whole whole' starBefore content starAfter : Text} {good : Text → Prop}
    (hstep : ∀ e, c.step ⟨e, whole⟩ ⟨e, whole'⟩)
    (hvalue : c.CouplesFinite (value content) (value content))
    (hlist : ArgumentList.hasComma 0 content = true →
      good ('[' :: ArgumentList.semicolons 0 content ++ ']' :: starAfter))
    (hliteral : ArgumentList.hasComma 0 content = false → ∀ x : Float, x.isFinite = true →
      good (starBefore ++ Literal.ofFloat x ++ starAfter)) :
    c.Couples good (replacementIn value whole starBefore content starAfter)
      (replacementIn value whole' starBefore content starAfter) := by
  unfold replacementIn
  split
  · rename_i hcomma
    exact couples_trace_bind (hstep _) (couples_pure (hlist hcomma))
  · rename_i hcomma
    exact (couples_checkExponents _).bind fun _ _ => hvalue.bind fun _ hx =>
      (couples_checkFinite_of_isFinite hx _ _).bind fun y hy =>
        couples_trace_bind (hstep _) (couples_pure (hliteral (Bool.eq_false_iff.2 hcomma) y hy))

/-- Two replacements of a group are coupled, wherever the group stands. -/
theorem couples_replacement {g g' : Group} (hcontent : g.content = g'.content)
    (hbefore : g.starBefore = g'.starBefore) (hafter : g.starAfter = g'.starAfter)
    (hstep : ∀ e, c.step ⟨e, g.text⟩ ⟨e, g'.text⟩) (h : g.content.DiceIn c.dice) :
    c.Couples g.Becomes (replacement (evaluateFlat 1) g) (replacement (evaluateFlat 1) g') := by
  unfold replacement
  rw [← hcontent, ← hbefore, ← hafter]
  exact couples_replacementIn hstep (couples_evaluateFlat isFinite_failedValue h)
    (fun hcomma => .inl ⟨hcomma, rfl⟩) (fun hcomma x hx => .inr ⟨hcomma, x, hx, rfl⟩)

/-- Replacing the groups of a text is coupled, whatever follows the text, if it is coupled after
it. -/
theorem couples_append {t rest rest' : Text} {good : Option Text → Prop} (hnone : good none)
    (hhead : rest.head?.any Group.joinsRight = rest'.head?.any Group.joinsRight)
    (hstep : ∀ e s, c.step ⟨e, s ++ rest⟩ ⟨e, s ++ rest'⟩)
    (h : ∀ before, Text.DiceIn c.dice before →
      c.Couples good (replaceGroups before rest) (replaceGroups before rest'))
    {before : Text} (hbefore : before.DiceIn c.dice) (ht : t.DiceIn c.dice) :
    c.Couples good (replaceGroups before (t ++ rest)) (replaceGroups before (t ++ rest')) := by
  induction t generalizing before with
  | nil => exact h before hbefore
  | cons d t ih =>
    obtain ⟨hd, ht⟩ := Text.diceIn_cons.1 ht
    rw [List.cons_append, List.cons_append, replaceGroups_def_cons, replaceGroups_def_cons]
    split
    · split
      · exact (couples_fail (c.problem_refl _ rfl)).bind fun _ _ => couples_pure hnone
      · rename_i content start hcut
        have hparts := Text.diceIn_reverse.2 hbefore
        rw [reverse_of_cutAtOpening hcut] at hparts
        obtain ⟨hstart, hcontent⟩ := Text.diceIn_append.1 hparts
        have hgroup : c.Couples (Group.Becomes ⟨start.reverse, content, t ++ rest⟩)
            (replacement (evaluateFlat 1) ⟨start.reverse, content, t ++ rest⟩)
            (replacement (evaluateFlat 1) ⟨start.reverse, content, t ++ rest'⟩) := by
          refine couples_replacement rfl rfl (Group.starAfter_eq (Text.any_head?_append hhead t))
            (fun e => ?_) (Text.diceIn_cons.1 hcontent).2
          simpa [Group.text] using hstep e (start.reverse ++ '(' :: (content ++ ')' :: t))
        refine hgroup.bind fun new hnew => ih ?_ ht
        exact Text.diceIn_append.2 ⟨Text.diceIn_reverse.2
          (hnew.diceIn (Text.diceIn_cons.1 hcontent).2), Text.diceIn_reverse.1 hstart⟩
    · exact ih (Text.diceIn_cons.2 ⟨hd, hbefore⟩) ht

/-- Two replacements of all groups of one text are coupled. -/
theorem couples_replaceGroups {before after : Text} (hbefore : before.DiceIn c.dice)
    (hafter : after.DiceIn c.dice) :
    c.Couples (fun flat => ∀ t ∈ flat, Text.DiceIn c.dice t) (replaceGroups before after)
      (replaceGroups before after) := by
  rw [← List.append_nil after]
  refine couples_append (by simp) rfl (fun _ _ => c.step_refl _) (fun before hbefore => ?_) hbefore
    hafter
  rw [replaceGroups_def_nil]
  split
  · exact (couples_fail (c.problem_refl _ rfl)).bind fun _ _ => couples_pure (by simp)
  · refine couples_pure ?_
    intro t ht
    rw [← Option.some.inj ht]
    exact Text.diceIn_reverse.2 hbefore

theorem couples_resolve {t : Text} (h : t.DiceIn c.dice) :
    c.Couples (fun flat => ∀ t ∈ flat, Text.DiceIn c.dice t) (resolve t) (resolve t) :=
  couples_replaceGroups (by simp [Text.DiceIn]) h

/-- Two evaluations of one text are coupled. -/
theorem couples_evaluateText {neutral : Float} (hneutral : neutral.isFinite = true) {t : Text}
    (h : t.DiceIn c.dice) : c.CouplesFinite (evaluateText neutral t) (evaluateText neutral t) := by
  rw [evaluateText_def]
  split
  · refine (couples_resolve h).bind fun flat hflat => ?_
    cases flat with
    | none => exact couples_pure isFinite_failedValue
    | some flat => exact couples_evaluateFlat isFinite_failedValue (hflat flat rfl)
  · exact couples_evaluateFlat hneutral h

/-! ## Expressions -/

/-- What is done after the groups are replaced is coupled. -/
theorem couples_finish {o : Option Text} (h : ∀ t ∈ o, Text.DiceIn c.dice t) :
    c.CouplesFinite (finish o) (finish o) := by
  cases o with
  | none => exact couples_pure isFinite_failedValue
  | some flat =>
    exact (couples_checkExponents flat).bind fun _ _ =>
      couples_evaluateFlat isFinite_failedValue (h flat rfl)

/-- Evaluations are coupled if the replacements of their groups are. -/
theorem couples_evaluateNormalized {t t' : Text}
    (h : c.Couples (fun flat => ∀ t ∈ flat, Text.DiceIn c.dice t) (resolve t) (resolve t')) :
    c.CouplesFinite (evaluateNormalized t) (evaluateNormalized t') := by
  rw [evaluateNormalized_eq, evaluateNormalized_eq]
  exact h.bind fun _ => couples_finish

/-- Evaluations of expressions are coupled if they are after normalization.  That a text is nested
too deep is reported and stops neither. -/
theorem coupled_evaluateExpression {e e' : Text}
    (h : c.CouplesFinite (evaluateNormalized (normalize e)) (evaluateNormalized (normalize e'))) :
    Coupled c.limits₁ c.limits₂ c.rel (evaluateExpression e) (evaluateExpression e')
      (fun a b s t => a = b ∧ a.isFinite = true ∧ c.rel s t)
      (fun halt s t => halt ≠ .tooDeep ∧ c.stop halt s t) := by
  intro s t hst
  rw [evaluateExpression_def, evaluateExpression_def]
  rw [runOn_tryCatch, runOn_tryCatch]
  rcases (h s t hst).cases with ⟨a, b, s', t', h₁, h₂, hpost⟩ | ⟨halt, s', t', h₁, h₂, hstop⟩
  · rw [h₁, h₂]
    exact hpost
  · rw [h₁, h₂]
    cases halt with
    | tooDeep =>
      have hrel := c.rel_of_tooDeep hstop
      exact ⟨rfl, isFinite_failedValue, c.rel_problem hrel (c.problem_refl _ rfl)⟩
    | sumTooLarge | tooManyDigits | fault => exact ⟨rfl, by simp, hstop⟩

/-- Two evaluations of one expression are coupled. -/
theorem coupled_evaluateExpression_self {e : Text} (h : (normalize e).DiceIn c.dice) :
    Coupled c.limits₁ c.limits₂ c.rel (evaluateExpression e) (evaluateExpression e)
      (fun a b s t => a = b ∧ a.isFinite = true ∧ c.rel s t)
      (fun halt s t => halt ≠ .tooDeep ∧ c.stop halt s t) :=
  coupled_evaluateExpression (couples_evaluateNormalized (couples_resolve h))

end TextCoupling

/-! ## Expressions and their outcomes -/

namespace Evaluation

variable [MathLibrary] [Stack]

/-- An expression ends as its normalized text does, unless this is nested too deep, which is a
problem of the expression. -/
theorem evaluateExpression_cases (limits : Limits) (s : Session) (e : Text) :
    (∃ x t, (evaluateNormalized (normalize e)).runOn limits s = .ok x t ∧
        (evaluateExpression e).runOn limits s = .ok x t) ∨
      (∃ t, (evaluateNormalized (normalize e)).runOn limits s = .error .tooDeep t ∧
        (evaluateExpression e).runOn limits s = .ok failedValue (t.addProblem .tooDeep)) ∨
      ∃ halt t, (evaluateNormalized (normalize e)).runOn limits s = .error halt t ∧
        (evaluateExpression e).runOn limits s = .error halt t := by
  rw [evaluateExpression_def, runOn_tryCatch]
  cases hrun : (evaluateNormalized (normalize e)).runOn limits s with
  | ok x t => exact .inl ⟨x, t, rfl, rfl⟩
  | error halt t =>
    cases halt with
    | tooDeep => exact .inr (.inl ⟨t, rfl, rfl⟩)
    | sumTooLarge | tooManyDigits | fault => exact .inr (.inr ⟨_, t, rfl, rfl⟩)

/-- The outcome of an expression is the end of its run. -/
theorem exists_runOn_of_evaluate {limits : Limits} {dice : DiceSource} {e : Text}
    {outcome : Outcome} (h : evaluate limits dice e = .ok outcome) :
    ∃ s, (evaluateExpression e).runOn limits ⟨{}, dice⟩ = .ok outcome.value s ∧
      s.report = outcome.report := by
  unfold evaluate at h
  split at h
  · rename_i value session hrun
    cases h
    exact ⟨session, hrun, rfl⟩
  · cases h

end Evaluation

end Reckoner
