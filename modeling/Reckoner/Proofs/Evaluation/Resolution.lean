import Mathlib
import Reckoner.Proofs.Evaluation.Group
import Reckoner.Proofs.Evaluation.Growth
import Reckoner.Proofs.Evaluation.Guarded
import Reckoner.Proofs.Expression.Balance

/-!
# Texts whose groups are replaced

Replacing the groups of a text goes through it once and keeps what was opened and not yet closed
(`Text.Begins`).  It ends without a text exactly when the parentheses are not balanced, and then
says which kind is left over.  Otherwise the new text is the old one with a literal or a list in
place of every outermost group (`Text.Replaces`), and a `*` at most beside it
(`Evaluation.resolve_spec`).
-/

namespace Reckoner

namespace Text

/-! ## Balance -/

/-- A beginning of the text closes more groups than it opens. -/
def ClosesTooEarly (t : Text) : Prop := ∃ s, s <+: t ∧ s.count '(' < s.count ')'

/-- What holds of the beginnings of a text holds of the empty one and of those that are longer. -/
theorem forall_prefix_cons {p : Text → Prop} {c : Char} {t : Text} :
    (∀ s, s <+: c :: t → p s) ↔ p [] ∧ ∀ s, s <+: t → p (c :: s) := by
  constructor
  · intro h
    exact ⟨h [] List.nil_prefix, fun s hs => h (c :: s) (List.cons_prefix_cons.2 ⟨rfl, hs⟩)⟩
  · rintro ⟨hnil, hcons⟩ s hs
    rcases List.prefix_cons_iff.1 hs with rfl | ⟨s', rfl, hs'⟩
    · exact hnil
    · exact hcons s' hs'

/-- A text is balanced when no beginning closes more groups than are open, and all are closed at the
end. -/
theorem isBalanced_iff {depth : Nat} {t : Text} :
    isBalanced depth t = true ↔
      (∀ s, s <+: t → s.count ')' ≤ depth + s.count '(') ∧
        t.count ')' = depth + t.count '(' := by
  induction t generalizing depth with
  | nil =>
    rw [isBalanced, beq_iff_eq]
    constructor
    · rintro rfl
      refine ⟨fun s hs => ?_, rfl⟩
      rw [List.prefix_nil.1 hs]
      exact le_rfl
    · rintro ⟨-, h⟩
      simpa using h.symm
  | cons c t ih =>
    rw [isBalanced, Bool.and_eq_true, ih, forall_prefix_cons]
    simp only [List.count_cons, List.count_nil, beq_iff_eq]
    by_cases hopening : c = '('
    · subst hopening
      simp [openAfter, Nat.add_assoc, Nat.add_comm 1]
    · by_cases hclosing : c = ')'
      · subst hclosing
        cases depth with
        | zero =>
          -- the beginning that ends here closes a group that is not open
          refine iff_of_false (by simp) ?_
          rintro ⟨⟨-, h⟩, -⟩
          simpa using h [] List.nil_prefix
        | succ depth =>
          simp [openAfter, Nat.add_right_comm]
      · simp [openAfter, hopening, hclosing]

/-- A text that closes too early is not balanced. -/
theorem ClosesTooEarly.isBalanced_eq_false {t : Text} (h : ClosesTooEarly t) :
    isBalanced 0 t = false := by
  obtain ⟨s, hs, hlt⟩ := h
  rw [← Bool.not_eq_true, isBalanced_iff]
  rintro ⟨hle, -⟩
  have := hle s hs
  omega

/-- Closing the groups that are open balances a text. -/
theorem isBalanced_replicate (n : Nat) : isBalanced n (List.replicate n ')') = true := by
  induction n with
  | zero => rfl
  | succ n ih => simpa [List.replicate_succ, isBalanced, openAfter] using ih

/-! ## Replacements -/

/-- A single star or nothing. -/
def IsStar (t : Text) : Prop := t = [] ∨ t = ['*']

/-- What a group is replaced with once its own groups are replaced: a literal with single stars
beside it, or a list in brackets with a single star behind it if the content has commas. -/
inductive IsReplacement (content : Text) : Text → Prop where
  /-- The literal of a number. -/
  | literal {left right : Text} {x : Float} (hcomma : ArgumentList.hasComma 0 content = false)
    (hx : x.isFinite = true) (hleft : IsStar left) (hright : IsStar right) :
    IsReplacement content (left ++ Literal.ofFloat x ++ right)
  /-- The items of a list. -/
  | list {right : Text} (hcomma : ArgumentList.hasComma 0 content = true) (hright : IsStar right) :
    IsReplacement content ('[' :: ArgumentList.semicolons 0 content ++ ']' :: right)

/-- The second text is the first one with every outermost group replaced; all other characters are
kept in their order. -/
inductive Replaces : Text → Text → Prop where
  /-- Nothing. -/
  | nil : Replaces [] []
  /-- A character outside of the groups. -/
  | cons {c : Char} {t u : Text} (hc : c ≠ '(' ∧ c ≠ ')') (ht : Replaces t u) :
    Replaces (c :: t) (c :: u)
  /-- An outermost group. -/
  | group {content inner new t u : Text} (hcontent : Replaces content inner)
    (hnew : IsReplacement inner new) (ht : Replaces t u) :
    Replaces ('(' :: (content ++ ')' :: t)) (new ++ u)

/-- A text that holds no parenthesis. -/
def IsUngrouped (t : Text) : Prop := '(' ∉ t ∧ ')' ∉ t

theorem isUngrouped_append {t u : Text} (ht : IsUngrouped t) (hu : IsUngrouped u) :
    IsUngrouped (t ++ u) :=
  ⟨by simp [ht.1, hu.1], by simp [ht.2, hu.2]⟩

theorem IsStar.isUngrouped {t : Text} (h : IsStar t) : IsUngrouped t := by
  rcases h with rfl | rfl
  · exact ⟨List.not_mem_nil, List.not_mem_nil⟩
  · exact ⟨by decide, by decide⟩

theorem isUngrouped_ofFloat {x : Float} (h : x.isFinite = true) :
    IsUngrouped (Literal.ofFloat x) := by
  obtain ⟨l, hl, htext, -⟩ := Literal.exists_ofFloat h
  rw [← htext]
  exact ⟨(isFlat_literal hl).opening, (isFlat_literal hl).closing⟩

theorem IsReplacement.isUngrouped {content new : Text} (h : IsReplacement content new)
    (hcontent : IsUngrouped content) : IsUngrouped new := by
  cases h with
  | literal hcomma hx hleft hright =>
    exact isUngrouped_append
      (isUngrouped_append hleft.isUngrouped (isUngrouped_ofFloat hx)) hright.isUngrouped
  | list hcomma hright =>
    have hitems : IsUngrouped (ArgumentList.semicolons 0 content) :=
      ⟨fun hc => (ArgumentList.mem_semicolons hc).elim (by decide) hcontent.1,
        fun hc => (ArgumentList.mem_semicolons hc).elim (by decide) hcontent.2⟩
    have hopening : IsUngrouped ['['] := ⟨by decide, by decide⟩
    have hclosing : IsUngrouped [']'] := ⟨by decide, by decide⟩
    exact isUngrouped_append
      (isUngrouped_append hopening hitems) (isUngrouped_append hclosing hright.isUngrouped)

namespace Replaces

variable {t t' u u' : Text}

theorem append (h : Replaces t u) (h' : Replaces t' u') : Replaces (t ++ t') (u ++ u') := by
  induction h with
  | nil => exact h'
  | cons hc ht ih => exact .cons hc ih
  | group hcontent hnew ht _ ih =>
    have hgroup := Replaces.group hcontent hnew ih
    simpa using hgroup

/-- No parenthesis is left. -/
theorem isUngrouped (h : Replaces t u) : IsUngrouped u := by
  induction h with
  | nil => exact ⟨List.not_mem_nil, List.not_mem_nil⟩
  | cons hc ht ih =>
    exact ⟨by simp [Ne.symm hc.1, ih.1], by simp [Ne.symm hc.2, ih.2]⟩
  | group hcontent hnew ht ihcontent iht =>
    exact isUngrouped_append (hnew.isUngrouped ihcontent) iht

/-- A text whose groups can be replaced is balanced wherever it stands. -/
theorem isBalanced_append (h : Replaces t u) (depth : Nat) (rest : Text) :
    isBalanced depth (t ++ rest) = isBalanced depth rest := by
  induction h generalizing depth rest with
  | nil => rfl
  | cons hc ht ih => rw [List.cons_append, isBalanced_cons_of_ne depth _ hc.1 hc.2, ih]
  | @group content inner new t u hcontent hnew ht ihcontent iht =>
    have hopen : isBalanced depth ('(' :: (content ++ ')' :: (t ++ rest))) =
        isBalanced (depth + 1) (content ++ ')' :: (t ++ rest)) := rfl
    have hclose : isBalanced (depth + 1) (')' :: (t ++ rest)) = isBalanced depth (t ++ rest) := rfl
    rw [List.cons_append, List.append_assoc, List.cons_append, hopen, ihcontent, hclose, iht]

end Replaces

/-! ## Beginnings -/

/-- The second text is the first one with every group replaced that is closed; other groups may be
open. -/
inductive Begins : Text → Text → Prop where
  /-- No group is open. -/
  | closed {t u : Text} (h : Replaces t u) : Begins t u
  /-- A group that is open, and what stands behind its opening parenthesis. -/
  | opened {t t' u u' : Text} (h : Begins t u) (h' : Replaces t' u') :
    Begins (t ++ '(' :: t') (u ++ '(' :: u')

namespace Begins

variable {t t' u u' inner : Text}

theorem append (h : Begins t u) (h' : Replaces t' u') : Begins (t ++ t') (u ++ u') := by
  cases h with
  | closed h => exact .closed (h.append h')
  | opened h h'' =>
    have hopened := h.opened (h''.append h')
    simpa using hopened

/-- The groups that are open are those whose parenthesis is left. -/
theorem isBalanced_append (h : Begins t u) (depth : Nat) (rest : Text) :
    isBalanced depth (t ++ rest) = isBalanced (depth + u.count '(') rest := by
  induction h generalizing depth rest with
  | closed h =>
    rw [h.isBalanced_append, List.count_eq_zero.2 h.isUngrouped.1, Nat.add_zero]
  | @opened t t' u u' h h' ih =>
    have hopen : isBalanced (depth + u.count '(') ('(' :: (t' ++ rest)) =
        isBalanced (depth + u.count '(' + 1) (t' ++ rest) := rfl
    rw [List.append_assoc, List.cons_append, ih, hopen, h'.isBalanced_append, List.count_append,
      List.count_cons_self, List.count_eq_zero.2 h'.isUngrouped.1, Nat.zero_add, Nat.add_assoc]

theorem replaces (h : Begins t u) (hu : '(' ∉ u) : Replaces t u := by
  cases h with
  | closed h => exact h
  | opened h h' => exact absurd (by simp) hu

/-- The group that was opened last. -/
theorem last_opened {v : Text} (h : Begins t v) (hv : v = u ++ '(' :: inner)
    (hinner : '(' ∉ inner) :
    ∃ t₀ content, t = t₀ ++ '(' :: content ∧ Begins t₀ u ∧ Replaces content inner := by
  cases h with
  | closed h =>
    have hopening := h.isUngrouped.1
    rw [hv] at hopening
    exact absurd (by simp) hopening
  | @opened t₀ content u₀ inner₀ h h' =>
    have hcut := Evaluation.cutAtOpening_append h'.isUngrouped.1 [] u₀.reverse
    have hcut' := Evaluation.cutAtOpening_append hinner [] u.reverse
    -- the last opening parenthesis of a text is in one place
    have hreverse := congrArg List.reverse hv
    simp only [List.reverse_append, List.reverse_cons, List.append_assoc,
      List.singleton_append] at hreverse
    rw [hreverse, hcut'] at hcut
    simp only [List.append_nil, Option.some.injEq, Prod.mk.injEq, List.reverse_inj] at hcut
    obtain ⟨rfl, rfl⟩ := hcut
    exact ⟨t₀, content, rfl, h, h'⟩

/-- No beginning of such a text closes more groups than it opens: with all open groups closed, it
would be balanced. -/
theorem not_closesTooEarly (h : Begins t u) : ¬ ClosesTooEarly t := by
  rintro ⟨s, hs, hlt⟩
  have hbalanced : isBalanced 0 (t ++ List.replicate (u.count '(') ')') = true := by
    rw [h.isBalanced_append, Nat.zero_add, isBalanced_replicate]
  have := (isBalanced_iff.1 hbalanced).1 s (hs.trans (List.prefix_append _ _))
  omega

end Begins

end Text

namespace Group

theorem isStar_starBefore (g : Group) : g.starBefore.IsStar := by
  unfold starBefore
  split
  · exact .inr rfl
  · exact .inl rfl

theorem isStar_starAfter (g : Group) : g.starAfter.IsStar := by
  unfold starAfter
  split
  · exact .inr rfl
  · exact .inl rfl

theorem Becomes.isReplacement {g : Group} {new : Text} (h : g.Becomes new) :
    g.content.IsReplacement new := by
  rcases h with ⟨hcomma, rfl⟩ | ⟨hcomma, x, hx, rfl⟩
  · exact .list hcomma g.isStar_starAfter
  · exact .literal hcomma hx g.isStar_starBefore g.isStar_starAfter

end Group

/-! ## Runs -/

namespace Evaluation

theorem cutAtOpening_eq_none {before : Text} (h : '(' ∉ before) (content : Text) :
    cutAtOpening content before = none := by
  induction before generalizing content with
  | nil => rfl
  | cons c before ih =>
    rw [List.mem_cons, not_or] at h
    rw [cutAtOpening, if_neg (Ne.symm h.1), ih h.2]

/-- Only the evaluation of its content stops the replacement of a group. -/
theorem runOn_value_of_replacement {value : Text → Evaluation Float} {g : Group} {halt : Halt}
    {limits : Limits} {s u : Session} (h : (replacement value g).runOn limits s = .error halt u) :
    ∃ t, (value g.content).runOn limits t = .error halt u := by
  cases hcomma : ArgumentList.hasComma 0 g.content with
  | true =>
    rw [replacement, replacementIn, if_pos hcomma] at h
    cases h
  | false =>
    rw [replacement_of_not_comma value hcomma, runOn_bind, runOn_bind] at h
    obtain ⟨t, ht⟩ : ∃ t, (checkExponents g.content).runOn limits s = .ok () t := by
      unfold checkExponents
      split <;> exact ⟨_, rfl⟩
    rw [ht] at h
    cases hvalue : (value g.content).runOn limits t with
    | ok x t' =>
      obtain ⟨y, t'', hfinite⟩ : ∃ y t'',
          (checkFinite x (.groupOverflow g.content)).runOn limits t' = .ok y t'' := by
        unfold checkFinite
        split <;> exact ⟨_, _, rfl⟩
      simp only [hvalue, runOn_bind_of_ok hfinite] at h
      cases h
    | error halt' t' =>
      simp only [hvalue] at h
      cases h
      exact ⟨t, hvalue⟩

section

variable [MathLibrary] [Stack] {limits : Limits}

/-- A closing parenthesis without an open group is a problem. -/
theorem replaceGroups_unmatched {before : Text} (h : '(' ∉ before) (after : Text) (s : Session) :
    (replaceGroups before (')' :: after)).runOn limits s =
      .ok none (s.addProblem .unmatchedClosing) := by
  rw [replaceGroups_def_cons, if_pos rfl, cutAtOpening_eq_none h]
  rfl

/-- A group that is still open at the end is a problem. -/
theorem replaceGroups_unfinished {before : Text} (h : '(' ∈ before) (s : Session) :
    (replaceGroups before []).runOn limits s = .ok none (s.addProblem .unmatchedOpening) := by
  rw [replaceGroups_def_nil, if_pos (by simpa using h)]
  rfl

theorem advances_replacement (g : Group) : Advances limits (replacement (evaluateFlat 1) g) :=
  advances_of_couples fun start => ⟨_, TextCoupling.couples_replacement rfl rfl rfl (fun _ => rfl)
    ((growth limits start).diceIn_coupling g.content)⟩

theorem yields_replacement (g : Group) : Yields g.Becomes (replacement (evaluateFlat 1) g) :=
  yields_of_couples fun limits => TextCoupling.couples_replacement rfl rfl rfl (fun _ => rfl)
    ((anySession limits).diceIn_coupling g.content)

end

/-! ## Main result -/

/-- How the groups of a text are replaced in a session: the groups are all replaced, or one
parenthesis is reported, or the evaluation of a group stops. -/
inductive Resolves [MathLibrary] [Stack] (limits : Limits) (s : Session) (t : Text) :
    EStateM.Result Halt Session (Option Text) → Prop where
  /-- All groups are replaced. -/
  | replaced {u : Text} {s' : Session} (hgrows : s.report.GrowsInto s'.report)
    (h : t.Replaces u) : Resolves limits s t (.ok (some u) s')
  /-- A group is closed that was not opened. -/
  | unmatchedClosing {s' : Session} (hgrows : s.report.GrowsInto s'.report)
    (h : t.ClosesTooEarly) : Resolves limits s t (.ok none (s'.addProblem .unmatchedClosing))
  /-- A group is opened and not closed. -/
  | unmatchedOpening {s' : Session} (hgrows : s.report.GrowsInto s'.report)
    (h : ¬ t.ClosesTooEarly) (hbalance : t.isBalanced 0 = false) :
    Resolves limits s t (.ok none (s'.addProblem .unmatchedOpening))
  /-- A group of the text stops when it is evaluated. -/
  | stopped {content inner : Text} {halt : Halt} {s' s'' : Session}
    (hgrows : s.report.GrowsInto s''.report) (hcontent : '(' :: content ++ [')'] <:+: t)
    (hinner : content.Replaces inner)
    (hrun : (evaluateFlat 1 inner).runOn limits s' = .error halt s'') :
    Resolves limits s t (.error halt s'')

section

variable [MathLibrary] [Stack] {limits : Limits}

theorem Resolves.of_growsInto {s s' : Session} {t : Text}
    {r : EStateM.Result Halt Session (Option Text)} (hgrows : s.report.GrowsInto s'.report)
    (h : Resolves limits s' t r) : Resolves limits s t r := by
  cases h with
  | replaced hgrows' h => exact .replaced (hgrows.trans hgrows') h
  | unmatchedClosing hgrows' h => exact .unmatchedClosing (hgrows.trans hgrows') h
  | unmatchedOpening hgrows' h hbalance =>
    exact .unmatchedOpening (hgrows.trans hgrows') h hbalance
  | stopped hgrows' hcontent hinner h =>
    exact .stopped (hgrows.trans hgrows') hcontent hinner h

/-- A closing parenthesis replaces the group that was opened last, and what follows goes on from
there. -/
theorem resolves_close {t inner start after : Text} {s : Session} (hinner : '(' ∉ inner)
    (h : t.Begins (start.reverse ++ '(' :: inner))
    (hrest : ∀ (new : Text) (s' : Session), (t ++ [')']).Begins (start.reverse ++ new) →
      Resolves limits s' (t ++ [')'] ++ after)
        ((replaceGroups (new.reverse ++ start) after).runOn limits s')) :
    Resolves limits s (t ++ ')' :: after)
      ((replaceGroups (inner.reverse ++ '(' :: start) (')' :: after)).runOn limits s) := by
  obtain ⟨t₀, content, rfl, hbegins, hcontent⟩ := h.last_opened rfl hinner
  have hadvances : Advances limits (replacement (evaluateFlat 1) ⟨start.reverse, inner, after⟩) :=
    advances_replacement _
  have hgrows := (hadvances s).grows
  rw [replaceGroups_close hinner, runOn_bind]
  cases hrun : (replacement (evaluateFlat 1) ⟨start.reverse, inner, after⟩).runOn limits s with
  | ok new s' =>
    rw [hrun] at hgrows
    have hnew := (yields_replacement _ limits s new s' hrun).isReplacement
    have hgroup := hbegins.append (.group hcontent hnew .nil)
    have hlater := hrest new s' (by simpa using hgroup)
    rw [List.append_assoc _ [')'], List.singleton_append] at hlater
    exact hlater.of_growsInto hgrows
  | error halt s' =>
    rw [hrun] at hgrows
    obtain ⟨s₁, hvalue⟩ := runOn_value_of_replacement hrun
    exact .stopped hgrows ⟨t₀, after, by simp⟩ hcontent hvalue

/-- The groups of a text are replaced after a beginning that is done.  The induction is on what is
left of the text. -/
theorem resolves_replaceGroups {t before : Text} (h : t.Begins before.reverse) (after : Text)
    (s : Session) :
    Resolves limits s (t ++ after) ((replaceGroups before after).runOn limits s) := by
  induction after generalizing t before s with
  | nil =>
    rw [List.append_nil]
    by_cases hopen : '(' ∈ before
    · rw [replaceGroups_unfinished hopen]
      refine .unmatchedOpening (.refl _) h.not_closesTooEarly ?_
      have hbalance := h.isBalanced_append 0 []
      rw [List.append_nil] at hbalance
      rw [hbalance, Text.isBalanced, Nat.zero_add, beq_eq_false_iff_ne, List.count_reverse]
      exact (List.count_pos_iff.2 hopen).ne'
    · rw [replaceGroups_nil hopen, runOn_pure]
      exact .replaced (.refl _) (h.replaces (by simpa using hopen))
  | cons c after ih =>
    by_cases hclosing : c = ')'
    · subst hclosing
      by_cases hopen : '(' ∈ before
      · obtain ⟨inner, start, rfl, hinner⟩ := List.eq_append_cons_of_mem hopen
        have hclose := @resolves_close _ _ limits t inner.reverse start after s
          (by simpa using hinner) (by simpa using h)
        rw [List.reverse_reverse] at hclose
        exact hclose fun new s' hnew => ih (by simpa using hnew) s'
      · -- up to here all groups are closed, so this parenthesis closes one too many
        rw [replaceGroups_unmatched hopen]
        refine .unmatchedClosing (.refl _) ⟨t ++ [')'], ⟨after, by simp⟩, ?_⟩
        have hbalance := h.isBalanced_append 0 []
        rw [List.append_nil, List.count_eq_zero.2 (by simpa using hopen), Nat.zero_add] at hbalance
        have hcount := (Text.isBalanced_iff.1 hbalance).2
        rw [List.count_append, List.count_append, List.count_singleton_self, hcount]
        simp
    · rw [replaceGroups_cons hclosing]
      have hbegins : (t ++ [c]).Begins (c :: before).reverse := by
        rw [List.reverse_cons]
        by_cases hopening : c = '('
        · rw [hopening]
          exact .opened h .nil
        · exact h.append (.cons ⟨hopening, hclosing⟩ .nil)
      have hrest := ih hbegins s
      rwa [List.append_assoc] at hrest

theorem resolves_resolve (s : Session) (t : Text) :
    Resolves limits s t ((resolve t).runOn limits s) := by
  have hbegins : Text.Begins [] (List.reverse []) := .closed .nil
  exact resolves_replaceGroups hbegins t s

/-- The text that is left has every outermost group replaced. -/
theorem replaces_of_resolve {s s' : Session} {t u : Text}
    (h : (resolve t).runOn limits s = .ok (some u) s') : t.Replaces u := by
  have hresolves := @resolves_resolve _ _ limits s t
  rw [h] at hresolves
  cases hresolves with
  | replaced hgrows h => exact h

/-- Replacing the groups of a text ends with a text exactly if the parentheses are balanced: the
text with every outermost group replaced, which holds no parenthesis.  If they are not, the last
problem that is reported tells whether a closing parenthesis is left over, as it is if some
beginning of the text closes more groups than it opens, or an opening one.  All that was reported
before is kept.  Only a group of the text that stops when it is evaluated stops it. -/
theorem resolve_spec (limits : Limits) (s : Session) (t : Text) :
    (∀ u s', (resolve t).runOn limits s = .ok (some u) s' →
      t.isBalanced 0 = true ∧ t.Replaces u ∧ hasParenthesis u = false ∧
        s.report.GrowsInto s'.report) ∧
    (∀ s', (resolve t).runOn limits s = .ok none s' →
      t.isBalanced 0 = false ∧ ∃ s₁ : Session, s.report.GrowsInto s₁.report ∧
        (t.ClosesTooEarly ∧ s' = s₁.addProblem .unmatchedClosing ∨
          ¬ t.ClosesTooEarly ∧ s' = s₁.addProblem .unmatchedOpening)) ∧
    ∀ halt s', (resolve t).runOn limits s = .error halt s' → s.report.GrowsInto s'.report ∧
      ∃ content inner s₁, '(' :: content ++ [')'] <:+: t ∧ Text.Replaces content inner ∧
        (evaluateFlat 1 inner).runOn limits s₁ = .error halt s' := by
  have hresolves := @resolves_resolve _ _ limits s t
  refine ⟨fun u s' hrun => ?_, fun s' hrun => ?_, fun halt s' hrun => ?_⟩ <;> rw [hrun] at hresolves
  · cases hresolves with
    | replaced hgrows h =>
      have hbalance := h.isBalanced_append 0 []
      rw [List.append_nil] at hbalance
      refine ⟨hbalance, h, ?_, hgrows⟩
      simpa [hasParenthesis, Text.IsUngrouped] using h.isUngrouped
  · cases hresolves with
    | unmatchedClosing hgrows h => exact ⟨h.isBalanced_eq_false, _, hgrows, .inl ⟨h, rfl⟩⟩
    | unmatchedOpening hgrows h hbalance => exact ⟨hbalance, _, hgrows, .inr ⟨h, rfl⟩⟩
  · cases hresolves with
    | stopped hgrows hcontent hinner hvalue =>
      exact ⟨hgrows, _, _, _, hcontent, hinner, hvalue⟩

end

end Evaluation

end Reckoner
