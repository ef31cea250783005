import Mathlib
import Reckoner.Proofs.Evaluation.Account
import Reckoner.Proofs.Evaluation.Resolution

/-!
# Nothing is passed over

An evaluation that reports nothing has read all of its text.  Without groups and lists the text is
made of tokens, one after the other, and of an expression every character is a sign of a group or of
a list, or stands in a token (`Evaluation.readsAll`).
-/

namespace Reckoner

/-! ## Characters that can be read -/

/-- The signs of groups and of lists, which are no tokens. -/
def enclosingSigns : Text := ['(', ')', '[', ']', ',', ';']

/-- Whether a character can be read: a sign of a group or of a list, or part of a token. -/
def IsAccepted (c : Char) : Prop := c ∈ enclosingSigns ∨ ∃ u, IsToken u ∧ c ∈ u

theorem isAccepted_of_isPart {lists : Prop} {u : Text} (h : IsPart lists u) {c : Char}
    (hc : c ∈ u) : IsAccepted c := by
  rcases h with htoken | ⟨-, hsign⟩
  · exact .inr ⟨u, htoken, hc⟩
  · have hall : ∀ u ∈ listSigns, u ⊆ enclosingSigns := by decide
    exact .inl (hall u hsign hc)

theorem Text.IsMadeOf.usesOnly {lists : Prop} {t : Text} (h : t.IsMadeOf (IsPart lists)) :
    t.UsesOnly IsAccepted := by
  intro c hc
  obtain ⟨u, hu, hmem⟩ := h.exists_of_mem hc
  exact isAccepted_of_isPart hu hmem

theorem isAccepted_star : IsAccepted '*' := .inr ⟨['*'], .operator (by decide), by decide⟩

/-- A doubled star is made a caret, and every other character stays. -/
theorem Text.usesOnly_of_caretForDoubleStar {allowed : Char → Prop} (hstar : allowed '*') {t : Text}
    (h : (caretForDoubleStar t).UsesOnly allowed) : t.UsesOnly allowed := by
  induction t using caretForDoubleStar.induct with
  | case1 rest ih =>
    rw [caretForDoubleStar, usesOnly_cons] at h
    exact usesOnly_cons.2 ⟨hstar, usesOnly_cons.2 ⟨hstar, ih h.2⟩⟩
  | case2 c rest hne ih =>
    rw [caretForDoubleStar.eq_2 _ _ hne, usesOnly_cons] at h
    exact usesOnly_cons.2 ⟨h.1, ih h.2⟩
  | case3 => exact usesOnly_nil

/-- A list has the characters of the group that it is made of, but for its commas. -/
theorem ArgumentList.usesOnly_of_semicolons {depth : Int} {t : Text}
    (h : (semicolons depth t).UsesOnly IsAccepted) : t.UsesOnly IsAccepted := by
  induction t generalizing depth with
  | nil => exact Text.usesOnly_nil
  | cons c t ih =>
    rw [semicolons, Text.usesOnly_cons] at h
    refine Text.usesOnly_cons.2 ⟨?_, ih h.2⟩
    by_cases hcomma : (c = ',' && depth = 0) = true
    · rw [Bool.and_eq_true, decide_eq_true_eq] at hcomma
      rw [hcomma.1]
      exact .inl (by decide)
    · rw [if_neg hcomma] at h
      exact h.1

/-! ## Groups -/

section

variable {allowed : Char → Prop}

theorem Text.IsReplacement.usesOnly (hown : Text.AllowsOwn allowed) {content new : Text}
    (h : content.IsReplacement new) (hcontent : content.UsesOnly allowed) :
    new.UsesOnly allowed := by
  have hstar : ∀ {t : Text}, t.IsStar → t.UsesOnly allowed := by
    intro t ht
    rcases ht with rfl | rfl
    · exact usesOnly_nil
    · exact usesOnly_cons.2 ⟨hown _ (by decide), usesOnly_nil⟩
  cases h with
  | literal hcomma hx hleft hright =>
    exact usesOnly_append.2
      ⟨usesOnly_append.2 ⟨hstar hleft, usesOnly_ofFloat hown hx⟩, hstar hright⟩
  | list hcomma hright =>
    have hlist := ArgumentList.usesOnly_semicolons hown hcontent 0
    exact usesOnly_append.2 ⟨usesOnly_cons.2 ⟨hown _ (by decide), hlist⟩,
      usesOnly_cons.2 ⟨hown _ (by decide), hstar hright⟩⟩

/-- A text with its groups replaced has no other characters than before, but for those that are
written by the evaluation. -/
theorem Text.Replaces.usesOnly (hown : Text.AllowsOwn allowed) {t u : Text} (h : t.Replaces u)
    (ht : t.UsesOnly allowed) : u.UsesOnly allowed := by
  induction h with
  | nil => exact usesOnly_nil
  | cons hc _ ih =>
    obtain ⟨hfirst, hrest⟩ := usesOnly_cons.1 ht
    exact usesOnly_cons.2 ⟨hfirst, ih hrest⟩
  | group _ hnew _ ihcontent ih =>
    obtain ⟨-, hinner⟩ := usesOnly_cons.1 ht
    obtain ⟨hcontent, hrest⟩ := usesOnly_append.1 hinner
    exact usesOnly_append.2
      ⟨hnew.usesOnly hown (ihcontent hcontent), ih (usesOnly_cons.1 hrest).2⟩

theorem Group.usesOnly_text {g : Group} :
    g.text.UsesOnly allowed ↔ g.before.UsesOnly allowed ∧ allowed '(' ∧
      g.content.UsesOnly allowed ∧ allowed ')' ∧ g.after.UsesOnly allowed := by
  rw [Group.text, List.append_assoc, Text.usesOnly_append, List.cons_append, Text.usesOnly_cons,
    Text.usesOnly_append, Text.usesOnly_cons]

end

namespace Evaluation

variable [MathLibrary] [Stack] (limits : Limits) {allowed : Char → Prop}
  (hown : Text.AllowsOwn allowed)
include hown

/-- A text without groups that is evaluated without a problem is made of tokens. -/
theorem ensures_evaluateFlat (lists : Prop) (neutral : Float) {t : Text}
    (ht : t.UsesOnly allowed) (hlists : '[' ∈ t → lists) :
    Ensures limits allowed (fun _ => t.IsMadeOf (IsPart lists)) (evaluateFlat neutral t) :=
  (Term.ensures_evaluate hown neutral (Term.ofText t) (Term.usesOnly_read _ _ ht)).imp
    fun _ h => Term.isMadeOf_of_isReadable hlists h

/-- If a group is replaced without a problem by a text that can be read, its content could be
read. -/
theorem ensures_replacement {g : Group} (hg : g.text.UsesOnly allowed) :
    Ensures limits allowed
      (fun new => new.UsesOnly IsAccepted → g.content.UsesOnly IsAccepted)
      (replacement (evaluateFlat 1) g) := by
  have hcontent := (Group.usesOnly_text.1 hg).2.2.1
  unfold replacement replacementIn
  split
  · refine .after (adds_trace hcontent hg) fun _ => ensures_pure fun hnew => ?_
    obtain ⟨hlist, -⟩ := Text.usesOnly_append.1 hnew
    exact ArgumentList.usesOnly_of_semicolons (Text.usesOnly_cons.1 hlist).2
  · refine .after (adds_checkExponents _) fun _ => ?_
    have hvalue := ensures_evaluateFlat limits hown True 1 hcontent fun _ => trivial
    refine (hvalue.before fun x => ?_).imp fun _ hmade _ => hmade.usesOnly
    refine .after (adds_checkFinite _ _) fun y => ?_
    exact .after (adds_trace hcontent hg) fun _ => ensures_pure trivial

/-- If the groups of a text are replaced without a problem, there is a text left, and if that can be
read, then the whole text could be read. -/
theorem ensures_replaceGroups (before after : Text)
    (h : Text.UsesOnly allowed (before.reverse ++ after)) :
    Ensures limits allowed
      (fun flat => ∃ t, flat = some t ∧
        (t.UsesOnly IsAccepted → Text.UsesOnly IsAccepted (before.reverse ++ after)))
      (replaceGroups before after) := by
  induction after generalizing before with
  | nil =>
    rw [replaceGroups_def_nil]
    split
    · exact (ensures_fail (P := fun _ => False) _).bind fun _ => ensures_pure False.elim
    · exact ensures_pure ⟨before.reverse, rfl, by rw [List.append_nil]; exact id⟩
  | cons c after ih =>
    rw [replaceGroups_def_cons]
    split
    · rename_i hc
      cases hcut : cutAtOpening [] before with
      | none => exact (ensures_fail (P := fun _ => False) _).bind fun _ => ensures_pure False.elim
      | some cut =>
        obtain ⟨content, start⟩ := cut
        rw [hc, ← group_text_of_cutAtOpening hcut] at h ⊢
        obtain ⟨hstart, -, hcontent, -, hafter⟩ := Group.usesOnly_text.1 h
        have hgroup := ensures_replacement limits hown h
        refine hgroup.bind_of_yields (yields_replacement _) fun new hnew => ?_
        have hrest : Text.UsesOnly allowed ((new.reverse ++ start).reverse ++ after) := by
          rw [List.reverse_append, List.reverse_reverse]
          exact Text.usesOnly_append.2
            ⟨Text.usesOnly_append.2 ⟨hstart, hnew.isReplacement.usesOnly hown hcontent⟩, hafter⟩
        refine (ih _ hrest).imp ?_
        rintro _ ⟨flat, rfl, hflat⟩ hread
        refine ⟨flat, rfl, fun haccepted => ?_⟩
        have hparts := hflat haccepted
        rw [List.reverse_append, List.reverse_reverse, Text.usesOnly_append,
          Text.usesOnly_append] at hparts
        obtain ⟨⟨hstart, hnew⟩, hafter⟩ := hparts
        exact Group.usesOnly_text.2
          ⟨hstart, .inl (by decide), hread hnew, .inl (by decide), hafter⟩
    · have hnext := ih (c :: before)
      rw [List.reverse_cons, List.append_assoc, List.singleton_append] at hnext
      exact hnext h

/-! ## Expressions -/

/-- A text that is evaluated without a problem could be read. -/
theorem ensures_evaluateNormalized {t : Text} (ht : t.UsesOnly allowed) :
    Ensures limits allowed (fun _ => t.UsesOnly IsAccepted) (evaluateNormalized t) := by
  have hresolved : Yields (fun flat => ∀ u ∈ flat, Text.UsesOnly allowed u) (resolve t) := by
    rintro limits s _ s' hrun u rfl
    exact (replaces_of_resolve hrun).usesOnly hown ht
  rw [evaluateNormalized_eq]
  refine (ensures_replaceGroups limits hown [] t ht).bind_of_yields hresolved fun flat hflat => ?_
  cases flat with
  | none =>
    refine ensures_pure ?_
    rintro ⟨u, hnone, -⟩
    exact absurd hnone (by simp)
  | some flat =>
    refine .after (adds_checkExponents flat) fun _ => ?_
    refine (ensures_evaluateFlat limits hown True 1 (hflat flat rfl) fun _ => trivial).imp ?_
    rintro _ hmade ⟨u, hu, hread⟩
    rw [← Option.some.inj hu] at hread
    exact hread hmade.usesOnly

/-- An expression that is evaluated without a problem could be read.  That it is nested too deep is
such a problem. -/
theorem ensures_evaluateExpression {e : Text} (he : (normalize e).UsesOnly allowed) :
    Ensures limits allowed (fun _ => (normalize e).UsesOnly IsAccepted)
      (evaluateExpression e) := by
  have hnormalized := ensures_evaluateNormalized limits hown he
  constructor
  · intro s
    have hend := hnormalized.extends_end s
    rcases evaluateExpression_cases limits s e with ⟨x, t, hrun, hresult⟩ | ⟨t, hrun, hresult⟩ |
      ⟨halt, t, hrun, hresult⟩ <;> rw [hrun] at hend <;> rw [hresult]
    · exact hend
    · exact hend.trans (t.extends_addProblem _)
    · exact hend
  · intro s u x hrun hsame
    have hend := hnormalized.extends_end s
    rcases evaluateExpression_cases limits s e with ⟨y, t, hfirst, hresult⟩ |
      ⟨t, hfirst, hresult⟩ | ⟨halt, t, -, hresult⟩
    · cases hresult.symm.trans hrun
      exact hnormalized.holds hfirst hsame
    · cases hresult.symm.trans hrun
      -- the problem was not there before
      have hlength := congrArg List.length hsame
      rw [hfirst] at hend
      have hle := hend.problems.length_le
      simp only [Session.addProblem, Report.addProblem, List.length_append,
        List.length_singleton, endSession] at hlength hle
      omega
    · cases hresult.symm.trans hrun

/-! ## Main result -/

omit hown in
/-- Nothing of a text is passed over.  A text without parentheses and brackets that is evaluated
without a new problem is made of tokens, whatever nothing counts as.  And every character of an
expression that is evaluated without a new problem, blanks apart, is a parenthesis, a bracket, a
comma or a semicolon, or stands in a token. -/
theorem isMadeOf_of_evaluateText (limits : Limits) (s s' : Session) (x : Float) :
    (∀ (neutral : Float) (t : Text), hasParenthesis t = false → '[' ∉ t →
      (evaluateText neutral t).runOn limits s = .ok x s' →
      s'.report.problems = s.report.problems → t.IsMadeOf IsToken) ∧
    ∀ expression : Text, (evaluateExpression expression).runOn limits s = .ok x s' →
      s'.report.problems = s.report.problems → ∀ c ∈ expression.removeBlanks,
        c ∈ ['(', ')', '[', ']', ',', ';'] ∨ ∃ token, IsToken token ∧ c ∈ token := by
  have hown : Text.AllowsOwn fun _ => True := fun _ _ => trivial
  have hany : ∀ t : Text, t.UsesOnly fun _ => True := fun _ _ _ => trivial
  constructor
  · intro neutral t hungrouped hbracket hrun hsame
    have hread := ensures_evaluateFlat limits hown _ neutral (hany t) hbracket
    rw [evaluateText_def] at hrun
    rw [hungrouped] at hrun
    refine (hread.holds hrun hsame).imp ?_
    rintro u (htoken | ⟨hnever, -⟩)
    · exact htoken
    · exact hnever.elim
  · intro expression hrun hsame
    have hread := (ensures_evaluateExpression limits hown (hany _)).holds hrun hsame
    exact Text.usesOnly_of_caretForDoubleStar isAccepted_star hread

end Evaluation

/-- A product with a factorial is made of three tokens, and a call with a blank is read as well. -/
theorem Evaluation.isMadeOf_twelve :
    Text.IsMadeOf IsToken ['2', '×', 'P', 'i', '!'] ∧
      ∀ c ∈ Text.removeBlanks ['m', 'a', 'x', '(', '1', ',', ' ', '2', ')'],
        c ∈ ['(', ')', '[', ']', ',', ';'] ∨ ∃ token, IsToken token ∧ c ∈ token := by
  have hruns : ∀ m : Evaluation Float, givesAny (m.runOn {} ⟨{}, .ofList []⟩) = true →
      (endSession (m.runOn {} ⟨{}, .ofList []⟩)).report.problems = [] →
      ∃ x t, m.runOn {} ⟨{}, .ofList []⟩ = .ok x t ∧ t.report.problems = [] := by
    intro m hvalue hnone
    cases hrun : m.runOn {} ⟨{}, .ofList []⟩ with
    | ok x t =>
      rw [hrun] at hnone
      exact ⟨x, t, rfl, hnone⟩
    | error halt t =>
      rw [hrun] at hvalue
      cases hvalue
  obtain ⟨x, s, hrun, hsame⟩ := hruns (evaluateText 1 ['2', '×', 'P', 'i', '!'])
    (by decide +kernel) (by decide +kernel)
  obtain ⟨y, t, hrun', hsame'⟩ := hruns (evaluateExpression
    ['m', 'a', 'x', '(', '1', ',', ' ', '2', ')']) (by decide +kernel) (by decide +kernel)
  exact ⟨(isMadeOf_of_evaluateText {} _ s x).1 1 _ (by decide) (by decide) hrun hsame,
    (isMadeOf_of_evaluateText {} _ t y).2 _ hrun' hsame'⟩

end Reckoner
