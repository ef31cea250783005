import Mathlib
import Reckoner.Evaluation.Expression
import Reckoner.Proofs.Expression.Term

/-!
# Replacing groups

How the groups of a text are found: everything up to a closing parenthesis is passed, and what
stands behind the last opening parenthesis is the content of a group.
-/

namespace Reckoner

namespace Evaluation

theorem cutAtOpening_append {content : Text} (h : '(' ∉ content) (rest before : Text) :
    cutAtOpening rest (content.reverse ++ '(' :: before) = some (content ++ rest, before) := by
  induction content using List.reverseRecOn generalizing rest with
  | nil => simp [cutAtOpening]
  | append_singleton content c ih =>
    rw [List.mem_append, not_or, List.mem_singleton] at h
    rw [List.reverse_append, List.reverse_singleton, List.singleton_append, List.cons_append,
      cutAtOpening, if_neg (Ne.symm h.2), ih h.1]
    simp

section

variable [MathLibrary] [Stack]

theorem replaceGroups_cons {c : Char} (h : c ≠ ')') (before after : Text) :
    replaceGroups before (c :: after) = replaceGroups (c :: before) after := by
  rw [replaceGroups_def_cons, if_neg h]

/-- Everything up to a closing parenthesis is passed. -/
theorem replaceGroups_append {t : Text} (h : ')' ∉ t) (before after : Text) :
    replaceGroups before (t ++ after) = replaceGroups (t.reverse ++ before) after := by
  induction t generalizing before with
  | nil => rfl
  | cons c t ih =>
    rw [List.mem_cons, not_or] at h
    rw [List.cons_append, replaceGroups_cons (Ne.symm h.1), ih h.2]
    simp

/-- A closing parenthesis ends the group that was opened last. -/
theorem replaceGroups_close {content : Text} (h : '(' ∉ content) (before after : Text) :
    replaceGroups (content.reverse ++ '(' :: before) (')' :: after) =
      replacement (evaluateFlat 1) ⟨before.reverse, content, after⟩ >>= fun new =>
        replaceGroups (new.reverse ++ before) after := by
  rw [replaceGroups_def_cons, if_pos rfl, cutAtOpening_append h, List.append_nil]

/-- Without an opening parenthesis that is left, the text is done. -/
theorem replaceGroups_nil {before : Text} (h : '(' ∉ before) :
    replaceGroups before [] = pure (some before.reverse) := by
  rw [replaceGroups_def_nil, if_neg (by simpa using h)]

/-- A text without parentheses is left as it is. -/
theorem resolve_eq_pure {t : Text} (hopening : '(' ∉ t) (hclosing : ')' ∉ t) :
    resolve t = pure (some t) := by
  have hreplace := replaceGroups_append hclosing [] []
  rwa [List.append_nil, List.append_nil, replaceGroups_nil (List.mem_reverse.not.2 hopening),
    List.reverse_reverse] at hreplace

end

theorem checkExponents_eq_pure {t : Text} (h : hasUnfinishedExponent t = false) :
    checkExponents t = pure () := by
  rw [checkExponents, if_neg (by simp [h])]

/-- A text without parentheses is evaluated as it is. -/
theorem evaluateNormalized_flat [MathLibrary] [Stack] {t : Text} (hopening : '(' ∉ t)
    (hclosing : ')' ∉ t) (hexponent : hasUnfinishedExponent t = false) :
    evaluateNormalized t = evaluateFlat 1 t := by
  rw [evaluateNormalized_def, resolve_eq_pure hopening hclosing, pure_bind]
  simp only [checkExponents_eq_pure hexponent, pure_bind]

/-- A group without commas is evaluated first, and then replaced with the literal of its value. -/
theorem replacement_of_not_comma (value : Text → Evaluation Float) {g : Group}
    (h : ArgumentList.hasComma 0 g.content = false) :
    replacement value g =
      (checkExponents g.content >>= fun _ => value g.content) >>= fun x => do
        let x ← checkFinite x (.groupOverflow g.content)
        trace (.group g.content x) g.text
        return g.starBefore ++ Literal.ofFloat x ++ g.starAfter := by
  rw [replacement, replacementIn, if_neg (by simp [h]), bind_assoc]

variable {content before after : Text}

/-- A group that touches no number is replaced with the literal of its value. -/
theorem replacement_of_value (value : Text → Evaluation Float)
    (hcomma : ArgumentList.hasComma 0 content = false)
    (hexponent : hasUnfinishedExponent content = false)
    (hbefore : before.head?.any Group.joinsLeft = false)
    (hafter : after.head?.any Group.joinsRight = false) :
    replacement value ⟨before.reverse, content, after⟩ = do
      let x ← value content
      let x ← checkFinite x (.groupOverflow content)
      trace (.group content x) (Group.text ⟨before.reverse, content, after⟩)
      return Literal.ofFloat x := by
  have hstar : Group.starBefore ⟨before.reverse, content, after⟩ = [] := by
    rw [Group.starBefore, if_neg (by simp [hbefore])]
  have hstar' : Group.starAfter ⟨before.reverse, content, after⟩ = [] := by
    rw [Group.starAfter, if_neg (by simp [hafter])]
  rw [replacement_of_not_comma value hcomma, checkExponents_eq_pure hexponent, hstar, hstar']
  simp

/-- A group with commas is replaced with a list. -/
theorem replacement_of_comma (value : Text → Evaluation Float)
    (hcomma : ArgumentList.hasComma 0 content = true)
    (hafter : after.head?.any Group.joinsRight = false) :
    replacement value ⟨before.reverse, content, after⟩ = do
      trace (.parameters content) (Group.text ⟨before.reverse, content, after⟩)
      return '[' :: (ArgumentList.semicolons 0 content ++ [']']) := by
  have hstar : Group.starAfter ⟨before.reverse, content, after⟩ = [] := by
    rw [Group.starAfter, if_neg (by simp [hafter])]
  rw [replacement, replacementIn, if_pos hcomma, hstar]
  rfl

end Evaluation

/-! ## Groups at their own positions -/

namespace Group

/-- A group with the positions that it has. -/
def span (g : Group) : Span where
  text := g.text
  content := g.content
  opening := g.before.length
  closing := g.before.length + 1 + g.content.length

theorem group_span (g : Group) : g.span.group = g := by
  have hbefore : takeTo (g.before.length : Int) g.text = g.before := by
    rw [takeTo, if_pos (Int.natCast_nonneg _), Int.toNat_natCast, text, List.append_assoc,
      List.take_left']
    rfl
  have htext : g.text = (g.before ++ '(' :: (g.content ++ [')'])) ++ g.after := by simp [text]
  have hlength : (g.before ++ '(' :: (g.content ++ [')'])).length =
      g.before.length + 1 + g.content.length + 1 := by
    simp +arith
  have hafter : dropTo ((g.before.length : Int) + 1 + g.content.length + 1) g.text = g.after := by
    rw [dropTo, if_pos (by omega), htext, List.drop_left']
    omega
  rw [Span.group, span, hbefore, hafter]

theorem isOutside_span (g : Group) : g.span.isOutside = false := by
  have hle : (g.before.length : Int) ≤ g.text.length := by
    rw [text, List.append_assoc, List.length_append]
    exact_mod_cast Nat.le_add_right _ _
  have hclosing :
      ¬ (g.before.length : Int) + 1 + g.content.length + 1 < -(g.text.length : Int) := by
    omega
  rw [Span.isOutside, span, decide_eq_false hclosing, decide_eq_false (not_lt.2 hle)]
  simp

theorem starBefore_span (g : Group) : g.span.starBefore = g.starBefore := by
  rw [Span.starBefore, group_span]
  split
  · rfl
  · rename_i hopening
    have hnil : g.before = [] :=
      List.eq_nil_of_length_eq_zero (Int.natCast_eq_zero.1
        (le_antisymm (not_lt.1 hopening) (Int.natCast_nonneg _)))
    rw [starBefore, hnil]
    rfl

end Group

/-- A group at its own positions is replaced as a group. -/
theorem Evaluation.replaceSpan_span [MathLibrary] [Stack] (g : Group) :
    replaceSpan g.span = some <$> replaceGroup g := by
  rw [replaceSpan, g.isOutside_span, g.group_span, g.starBefore_span, replaceGroup, replacement,
    map_eq_pure_bind, bind_assoc]
  rfl

/-! ## Spellings -/

/-- Two stars next to each other are another spelling; nothing else is. -/
theorem caretForDoubleStar_cons {c : Char} {t : Text} (h : c = '*' → t.head? ≠ some '*') :
    caretForDoubleStar (c :: t) = c :: caretForDoubleStar t := by
  refine caretForDoubleStar.eq_2 _ _ ?_
  rintro rest rfl rfl
  exact h rfl rfl

/-- A text without stars has no other spelling. -/
theorem caretForDoubleStar_append {s : Text} (h : '*' ∉ s) (t : Text) :
    caretForDoubleStar (s ++ t) = s ++ caretForDoubleStar t := by
  induction s with
  | nil => rfl
  | cons c s ih =>
    rw [List.mem_cons, not_or] at h
    rw [List.cons_append, caretForDoubleStar_cons fun hc => absurd hc.symm h.1, ih h.2,
      List.cons_append]

/-- No spelling goes across a character that is no star. -/
theorem caretForDoubleStar_append_cons {c : Char} (h : c ≠ '*') (s t : Text) :
    caretForDoubleStar (s ++ c :: t) = caretForDoubleStar s ++ c :: caretForDoubleStar t := by
  induction s using caretForDoubleStar.induct with
  | case1 rest ih => simp only [List.cons_append, caretForDoubleStar, ih]
  | case2 d rest hne ih =>
    have hstar : d = '*' → (rest ++ c :: t).head? ≠ some '*' := by
      intro hd
      cases rest with
      | nil => simpa using h
      | cons e rest =>
        intro heq
        exact hne rest hd (by rw [Option.some.inj heq])
    rw [List.cons_append, caretForDoubleStar_cons hstar, ih, caretForDoubleStar.eq_2 _ _ hne,
      List.cons_append]
  | case3 => exact caretForDoubleStar_cons fun hc => absurd hc h

/-- A text is normalized on both sides of a character that is neither blank nor a star. -/
theorem normalize_append_cons {c : Char} (hblank : Text.isBlank c = false) (hstar : c ≠ '*')
    (s t : Text) : normalize (s ++ c :: t) = normalize s ++ c :: normalize t := by
  rw [normalize, Text.removeBlanks, List.filter_append, List.filter_cons_of_pos (by simp [hblank]),
    caretForDoubleStar_append_cons hstar]
  rfl

theorem normalize_cons {c : Char} (hblank : Text.isBlank c = false) (hstar : c ≠ '*') (t : Text) :
    normalize (c :: t) = c :: normalize t := normalize_append_cons hblank hstar [] t

/-- A star is its own spelling before what is no star. -/
theorem normalize_star_cons {c : Char} (hblank : Text.isBlank c = false) (hstar : c ≠ '*')
    (t : Text) : normalize ('*' :: c :: t) = '*' :: c :: normalize t :=
  normalize_append_cons hblank hstar ['*'] t

/-! ## Literals -/

namespace Evaluation

variable [MathLibrary] [Stack] {l : Literal}

theorem evaluateFlat_literal (h : l.WellFormed) : evaluateFlat 1 l.text = literal l := by
  obtain ⟨room, hroom⟩ := Term.exists_ofText_eq (show 1 ≤ 700 by decide)
  rw [evaluateFlat, hroom, Term.read_literal h, Term.evaluate]

/-- An expression that is a literal is read as it is written. -/
theorem evaluateNormalized_literal (h : l.WellFormed) :
    evaluateNormalized (normalize l.text) = literal l := by
  have hcaret := caretForDoubleStar_append (Literal.not_mem_text h (by decide)) []
  rw [List.append_nil, caretForDoubleStar, List.append_nil] at hcaret
  rw [normalize, Text.removeBlanks_eq_self (Literal.not_isBlank_of_mem h), hcaret,
    evaluateNormalized_flat (Literal.not_mem_text h (by decide))
      (Literal.not_mem_text h (by decide)) (Literal.hasUnfinishedExponent_text h),
    evaluateFlat_literal h]

end Evaluation

end Reckoner
