import Mathlib
import Reckoner.Evaluation.Expression
import Reckoner.Proofs.Expression.ArgumentList

/-!
# Balanced texts

What may stand in a group that has a value (`Text.IsGroupContent`): the parentheses are balanced,
there are no lists, and commas stand in inner groups only.  Such a text is a sequence of characters
and inner groups (`Text.Nested`), and its groups leave a text without commas (`Text.Resolved`).
-/

namespace Reckoner

namespace Text

/-! ## Parentheses -/

/-- The number of open groups after a character. -/
def openAfter (depth : Nat) (c : Char) : Nat :=
  if c = '(' then depth + 1 else if c = ')' then depth - 1 else depth

/-- Whether the parentheses of a text are balanced, when some groups are open before it. -/
def isBalanced (depth : Nat) : Text → Bool
  | [] => depth == 0
  | c :: t => !(c == ')' && depth == 0) && isBalanced (openAfter depth c) t

/-- Whether a comma stands outside of every group. -/
def hasOuterComma (depth : Nat) : Text → Bool
  | [] => false
  | c :: t => (c == ',' && depth == 0) || hasOuterComma (openAfter depth c) t

/-- A text that holds no group and no comma. -/
def IsFlat (t : Text) : Prop := ∀ c ∈ t, c ≠ '(' ∧ c ≠ ')' ∧ c ≠ ','

variable {s t : Text} {c : Char}

theorem isFlat_cons (hc : c ≠ '(' ∧ c ≠ ')' ∧ c ≠ ',') (h : IsFlat t) : IsFlat (c :: t) :=
  List.forall_mem_cons.2 ⟨hc, h⟩

theorem IsFlat.append (hs : IsFlat s) (ht : IsFlat t) : IsFlat (s ++ t) :=
  List.forall_mem_append.2 ⟨hs, ht⟩

theorem IsFlat.opening (h : IsFlat t) : '(' ∉ t := fun hc => (h _ hc).1 rfl

theorem IsFlat.closing (h : IsFlat t) : ')' ∉ t := fun hc => (h _ hc).2.1 rfl

theorem IsFlat.comma (h : IsFlat t) : ',' ∉ t := fun hc => (h _ hc).2.2 rfl

theorem isFlat_of_isLetter (h : Literal.isLetter c = true) : c ≠ '(' ∧ c ≠ ')' ∧ c ≠ ',' := by
  refine ⟨?_, ?_, ?_⟩ <;>
  · rintro rfl
    exact absurd h (by decide)

theorem isFlat_literal {l : Literal} (h : l.WellFormed) : IsFlat l.text :=
  fun c hc => isFlat_of_isLetter (Literal.isLetter_of_mem h c hc)

/-- A text that may be the content of a group with a value. -/
structure IsGroupContent (t : Text) : Prop where
  /-- The parentheses are balanced. -/
  balanced : isBalanced 0 t = true
  /-- No list begins in the text. -/
  opening : '[' ∉ t
  /-- No list ends in the text. -/
  closing : ']' ∉ t
  /-- Commas stand in inner groups only. -/
  comma : hasOuterComma 0 t = false

/-! ### Other spellings -/

theorem openAfter_of_ne {c : Char} (depth : Nat) (h : c ≠ '(') (h' : c ≠ ')') :
    openAfter depth c = depth := by
  rw [openAfter, if_neg h, if_neg h']

/-- A character that is neither a parenthesis nor a comma does not matter. -/
theorem isBalanced_cons_of_ne {c : Char} (depth : Nat) (t : Text) (h : c ≠ '(') (h' : c ≠ ')') :
    isBalanced depth (c :: t) = isBalanced depth t := by
  rw [isBalanced, openAfter_of_ne depth h h']
  simp [h']

theorem hasOuterComma_cons_of_ne {c : Char} (depth : Nat) (t : Text) (h : c ≠ '(') (h' : c ≠ ')')
    (hcomma : c ≠ ',') : hasOuterComma depth (c :: t) = hasOuterComma depth t := by
  rw [hasOuterComma, openAfter_of_ne depth h h']
  simp [hcomma]

/-- Blank characters do not matter. -/
theorem groups_removeBlanks (t : Text) (depth : Nat) :
    isBalanced depth t.removeBlanks = isBalanced depth t ∧
      hasOuterComma depth t.removeBlanks = hasOuterComma depth t := by
  induction t generalizing depth with
  | nil => exact ⟨rfl, rfl⟩
  | cons c t ih =>
    cases hblank : isBlank c with
    | true =>
      have hne : ∀ d, isBlank d = false → c ≠ d := by
        rintro d hd rfl
        rw [hblank] at hd
        exact absurd hd (by decide)
      have h : c ≠ '(' := hne _ (by decide)
      have h' : c ≠ ')' := hne _ (by decide)
      rw [removeBlanks, List.filter_cons_of_neg (by simp [hblank]),
        isBalanced_cons_of_ne depth t h h',
        hasOuterComma_cons_of_ne depth t h h' (hne _ (by decide))]
      exact ih depth
    | false =>
      rw [removeBlanks, List.filter_cons_of_pos (by simp [hblank]), isBalanced, isBalanced,
        hasOuterComma, hasOuterComma]
      obtain ⟨hbalanced, hcomma⟩ := ih (openAfter depth c)
      rw [removeBlanks] at hbalanced hcomma
      rw [hbalanced, hcomma]
      exact ⟨rfl, rfl⟩

/-- Neither do stars and carets. -/
theorem groups_caretForDoubleStar (t : Text) (depth : Nat) :
    isBalanced depth (caretForDoubleStar t) = isBalanced depth t ∧
      hasOuterComma depth (caretForDoubleStar t) = hasOuterComma depth t := by
  induction t using caretForDoubleStar.induct generalizing depth with
  | case1 rest ih =>
    rw [caretForDoubleStar]
    exact ih depth
  | case2 c rest hne ih =>
    obtain ⟨hbalanced, hcomma⟩ := ih (openAfter depth c)
    rw [caretForDoubleStar.eq_2 _ _ hne, isBalanced, isBalanced, hasOuterComma, hasOuterComma,
      hbalanced, hcomma]
    exact ⟨rfl, rfl⟩
  | case3 => exact ⟨rfl, rfl⟩

theorem mem_caretForDoubleStar {t : Text} {c : Char} (h : c ∈ caretForDoubleStar t) :
    c = '^' ∨ c ∈ t := by
  induction t using caretForDoubleStar.induct with
  | case1 rest ih =>
    rw [caretForDoubleStar, List.mem_cons] at h
    rcases h with rfl | h
    · exact .inl rfl
    · exact (ih h).imp_right fun hc => by simp [hc]
  | case2 d rest hne ih =>
    rw [caretForDoubleStar.eq_2 _ _ hne, List.mem_cons] at h
    rcases h with rfl | h
    · exact .inr (by simp)
    · exact (ih h).imp_right (List.mem_cons_of_mem _)
  | case3 => exact .inr h

/-- The characters of a text after normalization are its own, but for carets. -/
theorem mem_normalize {t : Text} {c : Char} (h : c ∈ normalize t) : c = '^' ∨ c ∈ t :=
  (mem_caretForDoubleStar h).imp_right fun h => (List.mem_filter.1 h).1

/-- A flat text without lists may be the content of a group. -/
theorem IsFlat.isGroupContent (h : IsFlat t) (hopening : '[' ∉ t) (hclosing : ']' ∉ t) :
    IsGroupContent t := by
  have hscan : isBalanced 0 t = true ∧ hasOuterComma 0 t = false := by
    clear hopening hclosing
    induction t with
    | nil => exact ⟨rfl, rfl⟩
    | cons c t ih =>
      obtain ⟨⟨hne, hne', hcomma⟩, ht⟩ := List.forall_mem_cons.1 h
      rw [isBalanced_cons_of_ne 0 t hne hne', hasOuterComma_cons_of_ne 0 t hne hne' hcomma]
      exact ih ht
  exact ⟨hscan.1, hopening, hclosing, hscan.2⟩

/-- A text is balanced in every spelling. -/
theorem isBalanced_normalize (t : Text) : isBalanced 0 (Reckoner.normalize t) = isBalanced 0 t := by
  rw [Reckoner.normalize, (groups_caretForDoubleStar _ 0).1, (groups_removeBlanks t 0).1]

/-- The content of a group is one in every spelling. -/
theorem IsGroupContent.normalize {t : Text} (h : IsGroupContent t) :
    IsGroupContent (normalize t) where
  balanced := by rw [isBalanced_normalize, h.balanced]
  opening hc := (mem_normalize hc).elim (by decide) h.opening
  closing hc := (mem_normalize hc).elim (by decide) h.closing
  comma := by
    rw [Reckoner.normalize, (groups_caretForDoubleStar _ 0).2, (groups_removeBlanks t 0).2,
      h.comma]

/-! ## Inner groups -/

/-- A text of characters and groups; commas may stand outside of the groups or not. -/
inductive Nested : (commas : Bool) → Text → Prop where
  /-- Nothing. -/
  | nil {commas : Bool} : Nested commas []
  /-- A character that is no bracket and no parenthesis. -/
  | cons {commas : Bool} {c : Char} {t : Text} (hparenthesis : c ≠ '(' ∧ c ≠ ')')
    (hbracket : c ≠ '[' ∧ c ≠ ']') (hcomma : c = ',' → commas = true) (h : Nested commas t) :
    Nested commas (c :: t)
  /-- A group. -/
  | group {commas : Bool} {s t : Text} (hs : Nested true s) (ht : Nested commas t) :
    Nested commas ('(' :: (s ++ ')' :: t))

/-- Inside of a group, no comma is an outer one. -/
theorem Nested.hasOuterComma_append {commas : Bool} {s : Text} (h : Nested commas s) (depth : Nat)
    (t : Text) : hasOuterComma (depth + 1) (s ++ t) = hasOuterComma (depth + 1) t := by
  induction h generalizing depth t with
  | nil => rfl
  | cons hparenthesis hbracket hcomma h ih =>
    rw [List.cons_append, hasOuterComma, openAfter_of_ne _ hparenthesis.1 hparenthesis.2, ih]
    simp
  | @group commas s t' hs ht ihs iht =>
    have hopen : hasOuterComma (depth + 1) ('(' :: (s ++ ')' :: (t' ++ t))) =
        hasOuterComma (depth + 2) (s ++ ')' :: (t' ++ t)) := by
      rw [hasOuterComma]
      rfl
    have hclose : hasOuterComma (depth + 2) (')' :: (t' ++ t)) =
        hasOuterComma (depth + 1) (t' ++ t) := by
      rw [hasOuterComma]
      rfl
    rw [List.cons_append, List.append_assoc, List.cons_append, hopen, ihs, hclose, iht]

/-- A text whose parentheses are balanced with one more open group closes that group. -/
theorem exists_nested {t : Text} {depth : Nat} (hopening : '[' ∉ t) (hclosing : ']' ∉ t)
    (h : isBalanced (depth + 1) t = true) :
    ∃ s rest, t = s ++ ')' :: rest ∧ Nested true s ∧ isBalanced depth rest = true := by
  match t with
  | [] => exact absurd h (by simp [isBalanced])
  | c :: t =>
    rw [List.mem_cons, not_or] at hopening hclosing
    rw [isBalanced, Bool.and_eq_true] at h
    by_cases hc : c = ')'
    · subst hc
      exact ⟨[], t, rfl, .nil, h.2⟩
    · by_cases hc' : c = '('
      · subst hc'
        obtain ⟨s, rest, rfl, hs, hrest⟩ := exists_nested hopening.2 hclosing.2 h.2
        simp only [List.mem_append, List.mem_cons, not_or] at hopening hclosing
        obtain ⟨s', rest', rfl, hs', hrest'⟩ :=
          exists_nested hopening.2.2.2 hclosing.2.2.2 hrest
        exact ⟨'(' :: (s ++ ')' :: s'), rest', by simp, .group hs hs', hrest'⟩
      · rw [openAfter_of_ne _ hc' hc] at h
        obtain ⟨s, rest, rfl, hs, hrest⟩ := exists_nested hopening.2 hclosing.2 h.2
        exact ⟨c :: s, rest, rfl,
          .cons ⟨hc', hc⟩ ⟨Ne.symm hopening.1, Ne.symm hclosing.1⟩ (fun _ => rfl) hs, hrest⟩
termination_by t.length
decreasing_by all_goals (subst_vars; simp +arith)

/-- A balanced text without lists is a text of characters and groups; if no comma stands outside of
the groups, none is among the characters. -/
theorem nested_of_isBalanced {commas : Bool} {t : Text} (hbalanced : isBalanced 0 t = true)
    (hopening : '[' ∉ t) (hclosing : ']' ∉ t)
    (hcomma : commas = false → hasOuterComma 0 t = false) :
    Nested commas t := by
  match t with
  | [] => exact .nil
  | c :: t =>
    rw [List.mem_cons, not_or] at hopening hclosing
    rw [isBalanced, Bool.and_eq_true] at hbalanced
    simp only [hasOuterComma, Bool.or_eq_false_iff] at hcomma
    have hc : c ≠ ')' := by
      rintro rfl
      exact absurd hbalanced.1 (by simp)
    by_cases hc' : c = '('
    · subst hc'
      obtain ⟨s, rest, rfl, hs, hrest⟩ := exists_nested hopening.2 hclosing.2 hbalanced.2
      have hrestcomma : commas = false → hasOuterComma 0 rest = false := by
        intro hfalse
        have hinner := (hcomma hfalse).2
        rw [show openAfter 0 '(' = 0 + 1 from rfl, hs.hasOuterComma_append, hasOuterComma,
          Bool.or_eq_false_iff] at hinner
        exact hinner.2
      simp only [List.mem_append, List.mem_cons, not_or] at hopening hclosing
      exact .group hs
        (nested_of_isBalanced hrest hopening.2.2.2 hclosing.2.2.2 hrestcomma)
    · rw [openAfter_of_ne _ hc' hc] at hbalanced
      simp only [openAfter_of_ne _ hc' hc] at hcomma
      refine .cons ⟨hc', hc⟩ ⟨Ne.symm hopening.1, Ne.symm hclosing.1⟩ (fun heq => ?_)
        (nested_of_isBalanced hbalanced.2 hopening.2 hclosing.2 fun hfalse => (hcomma hfalse).2)
      by_contra hne
      exact absurd (hcomma (Bool.eq_false_iff.2 hne)).1 (by simp [heq])
termination_by t.length
decreasing_by all_goals (subst_vars; simp +arith)

/-- The content of a group is a text of characters and inner groups. -/
theorem IsGroupContent.nested {t : Text} (h : IsGroupContent t) : Nested false t :=
  nested_of_isBalanced h.balanced h.opening h.closing fun _ => h.comma

end Text

/-! ## Lists in place of groups -/

namespace ArgumentList

theorem foldl_depthAfter_add (t : Text) (a b : Int) :
    t.foldl depthAfter (a + b) = t.foldl depthAfter a + b := by
  induction t generalizing a with
  | nil => rfl
  | cons c t ih =>
    have hstep : depthAfter (a + b) c = depthAfter a c + b := by
      unfold depthAfter
      split_ifs <;> ring
    rw [List.foldl_cons, List.foldl_cons, hstep, ih]

theorem foldl_depthAfter_append (s t : Text) :
    (s ++ t).foldl depthAfter 0 = s.foldl depthAfter 0 + t.foldl depthAfter 0 := by
  have h := foldl_depthAfter_add t 0 (s.foldl depthAfter 0)
  rw [Int.zero_add] at h
  rw [List.foldl_append, h, Int.add_comm]

/-- Commas and semicolons have the same depth. -/
theorem foldl_depthAfter_semicolons (t : Text) (depth a : Int) :
    (semicolons depth t).foldl depthAfter a = t.foldl depthAfter a := by
  induction t generalizing depth a with
  | nil => rfl
  | cons c t ih =>
    rw [semicolons, List.foldl_cons, List.foldl_cons, ih]
    split_ifs with h
    · simp only [Bool.and_eq_true, decide_eq_true_eq] at h
      rw [h.1, depthAfter_of_ne a (by decide) (by decide),
        depthAfter_of_ne a (by decide) (by decide)]
    · rfl

theorem semicolons_append_foldl (s t : Text) (depth : Int) :
    semicolons depth (s ++ t) = semicolons depth s ++ semicolons (s.foldl depthAfter depth) t := by
  induction s generalizing depth with
  | nil => rfl
  | cons c s ih =>
    rw [List.cons_append, semicolons, ih, semicolons, List.foldl_cons, List.cons_append]

end ArgumentList

namespace Text

open ArgumentList

/-- A text whose groups were replaced: it closes the lists that it opens, and the commas that it
has stand outside of the lists, if it has commas at all. -/
structure Resolved (commas : Bool) (t : Text) : Prop where
  /-- There is no group. -/
  opening : '(' ∉ t
  /-- No group is closed. -/
  closing : ')' ∉ t
  /-- All lists are closed. -/
  depth : t.foldl depthAfter 0 = 0
  /-- No comma stands in a list. -/
  semicolons : ',' ∉ semicolons 0 t
  /-- Commas may be excluded. -/
  comma : commas = false → ',' ∉ t

theorem Resolved.append {commas : Bool} {s t : Text} (hs : Resolved commas s)
    (ht : Resolved commas t) : Resolved commas (s ++ t) where
  opening := by simp [hs.opening, ht.opening]
  closing := by simp [hs.closing, ht.closing]
  depth := by rw [List.foldl_append, hs.depth, ht.depth]
  semicolons := by
    rw [semicolons_append_foldl, hs.depth, List.mem_append, not_or]
    exact ⟨hs.semicolons, ht.semicolons⟩
  comma h := by simp [hs.comma h, ht.comma h]

/-- Without commas, there is none to exclude. -/
theorem Resolved.of_comma {t : Text} (hopening : '(' ∉ t) (hclosing : ')' ∉ t)
    (hdepth : t.foldl depthAfter 0 = 0) (hcomma : ',' ∉ t) (commas : Bool) : Resolved commas t where
  opening := hopening
  closing := hclosing
  depth := hdepth
  semicolons hc := (mem_semicolons hc).elim (by decide) hcomma
  comma _ := hcomma

theorem resolved_nil (commas : Bool) : Resolved commas [] :=
  .of_comma (by simp) (by simp) rfl (by simp) commas

/-- A character is left as it is. -/
theorem resolved_singleton {commas : Bool} {c : Char} (hparenthesis : c ≠ '(' ∧ c ≠ ')')
    (hbracket : c ≠ '[' ∧ c ≠ ']') (hcomma : c = ',' → commas = true) : Resolved commas [c] where
  opening := by simpa using Ne.symm hparenthesis.1
  closing := by simpa using Ne.symm hparenthesis.2
  depth := depthAfter_of_ne 0 hbracket.1 hbracket.2
  semicolons := by
    by_cases h : c = ','
    · simp [ArgumentList.semicolons, h]
    · simpa [ArgumentList.semicolons, h] using Ne.symm h
  comma h := by
    rintro hc
    rw [hcomma (List.mem_singleton.1 hc).symm] at h
    exact absurd h (by decide)

/-- A list is made of a text with commas. -/
theorem Resolved.list {commas : Bool} {t : Text} (h : Resolved commas t) (commas' : Bool) :
    Resolved commas' ('[' :: ArgumentList.semicolons 0 t ++ [']']) := by
  have hmem : ∀ c, c ≠ ';' → c ∉ t → c ≠ '[' ∧ c ≠ ']' →
      c ∉ '[' :: ArgumentList.semicolons 0 t ++ [']'] := by
    intro c hne ht hc hmem
    simp only [List.cons_append, List.mem_cons, List.mem_append, List.not_mem_nil, or_false] at hmem
    rcases hmem with hmem | hmem | hmem
    · exact hc.1 hmem
    · exact (mem_semicolons hmem).elim hne ht
    · exact hc.2 hmem
  refine .of_comma (hmem _ (by decide) h.opening (by decide))
    (hmem _ (by decide) h.closing (by decide)) ?_ ?_ commas'
  · have hone : (ArgumentList.semicolons 0 t).foldl depthAfter 1 = 1 := by
      have := foldl_depthAfter_add t 0 1
      rw [foldl_depthAfter_semicolons]
      rw [h.depth] at this
      exact this
    rw [List.cons_append, List.foldl_cons, show depthAfter 0 '[' = 1 from rfl, List.foldl_append,
      hone]
    rfl
  · simp only [List.cons_append, List.mem_cons, List.mem_append, not_or]
    exact ⟨by decide, h.semicolons, by decide, by simp⟩

theorem foldl_depthAfter_of_isItem {t : Text} (h : IsItem t) : t.foldl depthAfter 0 = 0 := by
  induction t with
  | nil => rfl
  | cons c t ih =>
    obtain ⟨⟨hopen, hclose, -⟩, ht⟩ := List.forall_mem_cons.1 h
    rw [List.foldl_cons, depthAfter_of_ne 0 hopen hclose, ih ht]

/-- A literal is left as it is. -/
theorem resolved_literal {l : Literal} (h : l.WellFormed) (commas : Bool) :
    Resolved commas l.text := by
  have hdepth := foldl_depthAfter_of_isItem (isItem_literal h)
  exact .of_comma (Literal.not_mem_text h (by decide)) (Literal.not_mem_text h (by decide)) hdepth
    (Literal.not_mem_text h (by decide)) commas

end Text

end Reckoner
