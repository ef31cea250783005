import Mathlib
import Reckoner.Proofs.Evaluation.Substitution

/-!
# Numerals next to groups

A numeral next to a group is a factor of the group if the two are told apart, and they are if an
ordinary digit or a point of the numeral touches the group (`evaluate_numeral_group`).  The digits
of other scripts are digits of numerals too, but no star is written next to them: there the numeral
and the literal of the value are read as one text (`evaluate_numeral_group_fused`).
-/

namespace Reckoner

/-! ## Normal texts -/

/-- A text without blanks and stars is kept. -/
theorem normalize_append {s : Text} (hblank : ∀ c ∈ s, Text.isBlank c = false) (hstar : '*' ∉ s)
    (t : Text) : normalize (s ++ t) = s ++ normalize t := by
  rw [normalize, Text.removeBlanks, List.filter_append, caretForDoubleStar_append]
  · have hkept : s.filter (fun c => !Text.isBlank c) = s :=
      List.filter_eq_self.2 fun c hc => by simp [hblank c hc]
    rw [hkept]
    rfl
  · exact fun h => hstar (List.mem_of_mem_filter h)

namespace Literal

variable {l : Literal}

theorem normalize_append (h : l.WellFormed) (t : Text) :
    normalize (l.text ++ t) = l.text ++ normalize t :=
  Reckoner.normalize_append (not_isBlank_of_mem h) (not_mem_text h (by decide)) t

theorem normalize_text (h : l.WellFormed) : normalize l.text = l.text := by
  have hnormalize := normalize_append h []
  rwa [List.append_nil, show normalize [] = [] from rfl, List.append_nil] at hnormalize

/-- A star before a literal is a sign of multiplication. -/
theorem normalize_star (h : l.WellFormed) : normalize ('*' :: l.text) = '*' :: l.text := by
  cases htext : l.text with
  | nil => rfl
  | cons c rest =>
    have hc : c ∈ l.text := by simp [htext]
    have hblank := not_isBlank_of_mem h c hc
    have hstar : c ≠ '*' := by
      rintro rfl
      exact not_mem_text h (by decide) hc
    have hself := normalize_text h
    rw [htext, normalize_cons hblank hstar] at hself
    rw [normalize_star_cons hblank hstar, hself]

end Literal

namespace Evaluation

variable [MathLibrary] [Stack] {content : Text} {x : Float}

/-! ## A group in a text without other groups -/

/-- A group with a value is replaced with the literal of the value and the stars around it. -/
theorem couples_group_value (h : HasValue content x) (limits : Limits) (before after : Text) :
    (TextCoupling.untraced limits).Couples
      (fun flat => ∀ t ∈ flat, Text.DiceIn (TextCoupling.untraced limits).dice t)
      (replaceGroups ('(' :: before) (normalize content ++ ')' :: after))
      (replaceGroups ((Group.starBefore ⟨before.reverse, content, after⟩ ++ Literal.ofFloat x ++
        Group.starAfter ⟨before.reverse, content, after⟩).reverse ++ before) after) := by
  refine TextCoupling.couples_untraced_iff.2 fun s t hst =>
    ⟨fun _ _ _ u _ => TextCoupling.diceIn_untraced u, ?_⟩
  have hgroup := TextCoupling.couples_untraced_iff.1 (@couples_group _ _ limits _ _
    h.isGroupContent.normalize.nested before after) s s rfl
  obtain ⟨s', hrun, hs'⟩ := runOn_replaceContent h limits before after s
  have hrest := TextCoupling.couples_untraced_iff.1 (@TextCoupling.couples_replaceGroups _ _
    (.untraced limits) ((Group.starBefore ⟨before.reverse, content, after⟩ ++ Literal.ofFloat x ++
      Group.starAfter ⟨before.reverse, content, after⟩).reverse ++ before) after
    (TextCoupling.diceIn_untraced _) (TextCoupling.diceIn_untraced _)) s' t (hs'.trans hst)
  rw [← hgroup.2, hrun, hrest.2]

/-- Two expressions have the same outcome, but for the trace, if one has a group with a value where
the other one has the literal of the value and the stars around it. -/
theorem untraced_evaluate_value (h : HasValue content x) {left right e e' : Text}
    (hleft : ')' ∉ left) (he : normalize e = left ++ '(' :: (normalize content ++ ')' :: right))
    (he' : normalize e' = left ++ (Group.starBefore ⟨left, content, right⟩ ++ Literal.ofFloat x ++
      Group.starAfter ⟨left, content, right⟩) ++ right) (limits : Limits) (dice : DiceSource) :
    (evaluate limits dice e).map Outcome.untraced =
      (evaluate limits dice e').map Outcome.untraced := by
  set new := Group.starBefore ⟨left, content, right⟩ ++ Literal.ofFloat x ++
    Group.starAfter ⟨left, content, right⟩ with hnew
  have hclosing : ')' ∉ new := by
    obtain ⟨l, hl, htext, -⟩ := Literal.exists_ofFloat h.isFinite
    have hliteral : ')' ∉ Literal.ofFloat x := htext ▸ Literal.not_mem_text hl (by decide)
    have hbefore : ')' ∉ Group.starBefore ⟨left, content, right⟩ := by
      unfold Group.starBefore
      split <;> simp
    have hafter : ')' ∉ Group.starAfter ⟨left, content, right⟩ := by
      unfold Group.starAfter
      split <;> simp
    simp [hnew, hliteral, hbefore, hafter]
  have hresolve : (TextCoupling.untraced limits).Couples
      (fun flat => ∀ t ∈ flat, Text.DiceIn (TextCoupling.untraced limits).dice t)
      (resolve (normalize e)) (resolve (normalize e')) := by
    have hgroup := couples_group_value h limits left.reverse right
    rw [List.reverse_reverse, ← hnew, ← replaceGroups_append hclosing] at hgroup
    rw [he, he', resolve, resolve, replaceGroups_append hleft, List.append_assoc,
      replaceGroups_append hleft, List.append_nil, replaceGroups_cons (by decide)]
    exact hgroup
  exact untraced_evaluate_of_couples (TextCoupling.couples_evaluateNormalized hresolve) dice

/-! ## A numeral next to a group -/

section

variable {l : Literal} (hl : l.WellFormed) (h : HasValue content x) (limits : Limits)
  (dice : DiceSource)
include hl h

/-- A literal before a group stands before the literal of the value, with a star between them if it
ends with an ordinary digit or a point. -/
theorem untraced_evaluate_literal_before :
    (evaluate limits dice (l.text ++ '(' :: (content ++ [')']))).map Outcome.untraced =
      (evaluate limits dice (l.text ++ (Group.starBefore ⟨l.text, content, []⟩ ++
        Literal.ofFloat x))).map Outcome.untraced := by
  obtain ⟨l', hl', htext, -⟩ := Literal.exists_ofFloat h.isFinite
  have hgroup : normalize (l.text ++ '(' :: (content ++ [')'])) =
      l.text ++ '(' :: (normalize content ++ ')' :: []) := by
    rw [Literal.normalize_append hl, normalize_cons (by decide) (by decide),
      normalize_append_cons (by decide) (by decide)]
    rfl
  have hvalue : normalize (l.text ++ (Group.starBefore ⟨l.text, content, []⟩ ++
      Literal.ofFloat x)) =
      l.text ++ (Group.starBefore ⟨l.text, content, []⟩ ++ Literal.ofFloat x ++
        Group.starAfter ⟨l.text, content, []⟩) ++ [] := by
    have hafter : Group.starAfter ⟨l.text, content, []⟩ = [] := rfl
    rw [Literal.normalize_append hl, hafter, ← htext, List.append_nil, List.append_nil]
    unfold Group.starBefore
    split
    · exact congrArg _ (Literal.normalize_star hl')
    · exact congrArg _ (Literal.normalize_text hl')
  exact untraced_evaluate_value h (Literal.not_mem_text hl (by decide)) hgroup hvalue limits dice

/-- A star between a literal and a group stands between the literal and the literal of the value. -/
theorem untraced_evaluate_literal_star_before :
    (evaluate limits dice (l.text ++ '*' :: '(' :: (content ++ [')']))).map Outcome.untraced =
      (evaluate limits dice (l.text ++ (['*'] ++ Literal.ofFloat x))).map Outcome.untraced := by
  obtain ⟨l', hl', htext, -⟩ := Literal.exists_ofFloat h.isFinite
  have hgroup : normalize (l.text ++ '*' :: '(' :: (content ++ [')'])) =
      (l.text ++ ['*']) ++ '(' :: (normalize content ++ ')' :: []) := by
    rw [Literal.normalize_append hl, normalize_star_cons (by decide) (by decide),
      normalize_append_cons (by decide) (by decide)]
    simp [show normalize [] = [] from rfl]
  have hvalue : normalize (l.text ++ (['*'] ++ Literal.ofFloat x)) =
      (l.text ++ ['*']) ++ (Group.starBefore ⟨l.text ++ ['*'], content, []⟩ ++ Literal.ofFloat x ++
        Group.starAfter ⟨l.text ++ ['*'], content, []⟩) ++ [] := by
    have hbefore : Group.starBefore ⟨l.text ++ ['*'], content, []⟩ = [] := by
      rw [Group.starBefore, List.getLast?_concat]
      rfl
    have hafter : Group.starAfter ⟨l.text ++ ['*'], content, []⟩ = [] := rfl
    rw [Literal.normalize_append hl, hbefore, hafter, ← htext]
    simpa using Literal.normalize_star hl'
  have hclosing : ')' ∉ l.text ++ ['*'] := by
    simpa using Literal.not_mem_text hl (by decide)
  exact untraced_evaluate_value h hclosing hgroup hvalue limits dice

/-- A literal behind a group stands behind the literal of the value, with a star between them if it
begins with an ordinary digit or a point. -/
theorem untraced_evaluate_literal_behind :
    (evaluate limits dice ('(' :: (content ++ ')' :: l.text))).map Outcome.untraced =
      (evaluate limits dice (Literal.ofFloat x ++ (Group.starAfter ⟨[], content, l.text⟩ ++
        l.text))).map Outcome.untraced := by
  obtain ⟨l', hl', htext, -⟩ := Literal.exists_ofFloat h.isFinite
  have hgroup : normalize ('(' :: (content ++ ')' :: l.text)) =
      [] ++ '(' :: (normalize content ++ ')' :: l.text) := by
    rw [normalize_cons (by decide) (by decide), normalize_append_cons (by decide) (by decide),
      Literal.normalize_text hl]
    rfl
  have hvalue : normalize (Literal.ofFloat x ++ (Group.starAfter ⟨[], content, l.text⟩ ++
      l.text)) =
      [] ++ (Group.starBefore ⟨[], content, l.text⟩ ++ Literal.ofFloat x ++
        Group.starAfter ⟨[], content, l.text⟩) ++ l.text := by
    have hbefore : Group.starBefore ⟨[], content, l.text⟩ = [] := rfl
    rw [hbefore, ← htext, Literal.normalize_append hl', List.nil_append, List.nil_append,
      List.append_assoc]
    unfold Group.starAfter
    split
    · exact congrArg _ (Literal.normalize_star hl)
    · exact congrArg _ (Literal.normalize_text hl)
  exact untraced_evaluate_value h List.not_mem_nil hgroup hvalue limits dice

/-- A star between a group and a literal stands between the literal of the value and the literal. -/
theorem untraced_evaluate_literal_star_behind :
    (evaluate limits dice ('(' :: (content ++ ')' :: '*' :: l.text))).map Outcome.untraced =
      (evaluate limits dice (Literal.ofFloat x ++ (['*'] ++ l.text))).map Outcome.untraced := by
  obtain ⟨l', hl', htext, -⟩ := Literal.exists_ofFloat h.isFinite
  have hgroup : normalize ('(' :: (content ++ ')' :: '*' :: l.text)) =
      [] ++ '(' :: (normalize content ++ ')' :: '*' :: l.text) := by
    rw [normalize_cons (by decide) (by decide), normalize_append_cons (by decide) (by decide),
      Literal.normalize_star hl]
    rfl
  have hvalue : normalize (Literal.ofFloat x ++ (['*'] ++ l.text)) =
      [] ++ (Group.starBefore ⟨[], content, '*' :: l.text⟩ ++ Literal.ofFloat x ++
        Group.starAfter ⟨[], content, '*' :: l.text⟩) ++ '*' :: l.text := by
    have hbefore : Group.starBefore ⟨[], content, '*' :: l.text⟩ = [] := rfl
    have hafter : Group.starAfter ⟨[], content, '*' :: l.text⟩ = [] := rfl
    rw [hbefore, hafter, ← htext, Literal.normalize_append hl', List.singleton_append,
      Literal.normalize_star hl]
    simp
  exact untraced_evaluate_value h List.not_mem_nil hgroup hvalue limits dice

end

end Evaluation

/-! ## Numerals as factors -/

section

variable [MathLibrary] [Stack] {n : Numeral} {content : Text} {x : Float}

/-- A numeral next to a group with a value is multiplied with it, as if a star was typed between
them, if an ordinary digit or a point of the numeral touches the group.  Otherwise no star is
written, and the numeral and the literal of the value are read as one text. -/
theorem evaluate_numeral_group (hn : n.WellFormed) (h : HasValue content x) (limits : Limits)
    (dice : DiceSource) :
    ((n.text.getLast?.any Group.joinsLeft = true →
        (evaluate limits dice (n.text ++ '(' :: (content ++ [')']))).map Outcome.untraced =
          (evaluate limits dice (n.text ++ '*' :: '(' :: (content ++ [')']))).map
            Outcome.untraced) ∧
      (n.text.getLast?.any Group.joinsLeft = false →
        (evaluate limits dice (n.text ++ '(' :: (content ++ [')']))).map Outcome.untraced =
          (evaluate limits dice (n.text ++ Literal.ofFloat x)).map Outcome.untraced)) ∧
    ((n.text.head?.any Group.joinsRight = true →
        (evaluate limits dice ('(' :: (content ++ ')' :: n.text))).map Outcome.untraced =
          (evaluate limits dice ('(' :: (content ++ ')' :: '*' :: n.text))).map
            Outcome.untraced) ∧
      (n.text.head?.any Group.joinsRight = false →
        (evaluate limits dice ('(' :: (content ++ ')' :: n.text))).map Outcome.untraced =
          (evaluate limits dice (Literal.ofFloat x ++ n.text)).map Outcome.untraced)) := by
  have hl : Literal.WellFormed ⟨false, n⟩ := hn
  have hbefore := Evaluation.untraced_evaluate_literal_before hl h limits dice
  have hstar := Evaluation.untraced_evaluate_literal_star_before hl h limits dice
  have hbehind := Evaluation.untraced_evaluate_literal_behind hl h limits dice
  have hstar' := Evaluation.untraced_evaluate_literal_star_behind hl h limits dice
  simp only [show (⟨false, n⟩ : Literal).text = n.text from rfl, Group.starBefore,
    Group.starAfter] at hbefore hstar hbehind hstar'
  refine ⟨⟨fun hjoins => ?_, fun hjoins => ?_⟩, fun hjoins => ?_, fun hjoins => ?_⟩
  · rw [hbefore, hstar, if_pos hjoins]
  · rw [hbefore, if_neg (by simp [hjoins]), List.nil_append]
  · rw [hbehind, hstar', if_pos hjoins]
  · rw [hbehind, if_neg (by simp [hjoins]), List.nil_append]

end

/-- Four in parentheses. -/
theorem hasValue_four : HasValue ['4'] 4 :=
  hasValue_of_evaluatesTo ⟨by decide, by decide, by decide, by decide⟩ (by decide) (by decide)
    (by decide +kernel)

/-- A point before a group, and a digit of another script before and behind it. -/
theorem evaluate_numeral_group_four :
    HasValue ['4'] 4 ∧
      (evaluate {} (.ofSeed 1) ['3', '.', '(', '4', ')']).map Outcome.untraced =
        (evaluate {} (.ofSeed 1) ['3', '.', '*', '(', '4', ')']).map Outcome.untraced ∧
      (evaluate {} (.ofSeed 1) ['٣', '(', '4', ')']).map Outcome.untraced =
        (evaluate {} (.ofSeed 1) (['٣'] ++ Literal.ofFloat 4)).map Outcome.untraced ∧
      (evaluate {} (.ofSeed 1) ['(', '4', ')', '٣']).map Outcome.untraced =
        (evaluate {} (.ofSeed 1) (Literal.ofFloat 4 ++ ['٣'])).map Outcome.untraced := by
  have hpoint := evaluate_numeral_group (n := ⟨['3'], true, [], none⟩)
    (Numeral.wellFormed_iff_scan?.2 (by rfl)) hasValue_four {} (.ofSeed 1)
  have hdigit := evaluate_numeral_group (n := ⟨['٣'], false, [], none⟩)
    (Numeral.wellFormed_iff_scan?.2 (by rfl)) hasValue_four {} (.ofSeed 1)
  exact ⟨hasValue_four, hpoint.1.1 (by decide), hdigit.1.2 (by decide), hdigit.2.2 (by decide)⟩

/-- A digit of another script before a group is read as a digit of the value: three times four is
thirty-four. -/
theorem evaluate_numeral_group_fused :
    Numeral.WellFormed ⟨['٣'], false, [], none⟩ ∧ HasValue ['4'] 4 ∧
      evaluatesTo ['٣', '(', '4', ')'] 34 = true ∧
      evaluatesTo ['٣', '*', '(', '4', ')'] 12 = true ∧
      evaluatesTo ['(', '4', ')', '٣'] 43 = true ∧
      evaluatesTo ['(', '4', ')', '*', '٣'] 12 = true ∧ ((34 : Float) == 12) = false :=
  ⟨Numeral.wellFormed_iff_scan?.2 (by rfl), hasValue_four, by decide +kernel,
    by decide +kernel, by decide +kernel, by decide +kernel, by decide +kernel⟩

end Reckoner
