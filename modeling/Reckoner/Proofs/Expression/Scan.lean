import Mathlib
import Reckoner.Proofs.Expression.Dice
import Reckoner.Proofs.Expression.Items

/-!
# The scans of a text

Lists are counted by every scan on its own: the search for an operator counts them from the right
(`Text.closedLists`), and the searches for commas, for semicolons and for the end of a list count
them from the left (`Text.openLists`).  In a text that closes its lists all of them agree
(`Text.ScansAgree`): a character that one of them finds outside of every list is there for the
others, and it does not stand between a bracket and its partner (`Text.InList`).
-/

namespace Reckoner

open ArgumentList

namespace Text

variable {s t before after : Text} {c : Char}

/-! ## Counts -/

/-- How many lists are open behind a text, as a scan from the left counts them. -/
def openLists (t : Text) : Int := t.foldl depthAfter 0

/-- How many lists are open before a text, as a scan from the right counts them. -/
def closedLists (t : Text) : Int :=
  t.foldr (fun c depth => if c = ']' then depth + 1 else if c = '[' then depth - 1 else depth) 0

@[simp] theorem openLists_nil : openLists [] = 0 := rfl

theorem openLists_append (s t : Text) : openLists (s ++ t) = openLists s + openLists t :=
  foldl_depthAfter_append s t

theorem openLists_cons (c : Char) (t : Text) : openLists (c :: t) = openLists [c] + openLists t :=
  openLists_append [c] t

theorem openLists_cons_of_ne (hc : c ≠ '[' ∧ c ≠ ']') (t : Text) :
    openLists (c :: t) = openLists t := by
  rw [openLists, List.foldl_cons, depthAfter_of_ne 0 hc.1 hc.2, openLists]

theorem openLists_open (t : Text) : openLists ('[' :: t) = openLists t + 1 := by
  rw [openLists_cons, Int.add_comm]
  rfl

theorem openLists_close (t : Text) : openLists (']' :: t) = openLists t - 1 := by
  rw [openLists_cons, Int.add_comm]
  rfl

theorem closedLists_cons (c : Char) (t : Text) :
    closedLists (c :: t) =
      if c = ']' then closedLists t + 1 else if c = '[' then closedLists t - 1
      else closedLists t := rfl

/-- The scan from the right counts what the scan from the left counts, the other way round. -/
theorem closedLists_eq_neg (t : Text) : closedLists t = -openLists t := by
  induction t with
  | nil => rfl
  | cons c t ih =>
    rw [closedLists_cons, ih]
    split
    · rename_i hclose
      rw [hclose, openLists_close]
      omega
    · rename_i hclose
      split
      · rename_i hopen
        rw [hopen, openLists_open]
        omega
      · rename_i hopen
        rw [openLists_cons_of_ne ⟨hopen, hclose⟩]

/-! ## Texts that close their lists -/

theorem Listed.openLists_eq (h : Listed t) : openLists t = 0 := h.foldl_depthAfter 0

/-- A text that begins with a bracket begins with a list. -/
theorem Listed.exists_of_open (h : Listed ('[' :: t)) :
    ∃ inner rest, t = inner ++ ']' :: rest ∧ Listed inner ∧ Listed rest := by
  cases h with
  | cons hc h => exact absurd rfl hc.1
  | list hs ht => exact ⟨_, _, rfl, hs, ht⟩

theorem Listed.tail (h : Listed (c :: t)) (hc : c ≠ '[') : Listed t := by
  cases h with
  | cons hc h => exact h
  | list hs ht => exact absurd rfl hc

/-- What stands behind a text without brackets closes its lists if the whole text does. -/
theorem Listed.of_append (h : Listed (s ++ t)) (hs : ∀ c ∈ s, c ≠ '[' ∧ c ≠ ']') : Listed t := by
  induction s with
  | nil => exact h
  | cons c s ih =>
    obtain ⟨hc, hs⟩ := List.forall_mem_cons.1 hs
    exact ih (h.tail hc.1) hs

/-- No beginning closes more lists than it opens. -/
theorem Listed.openLists_nonneg (h : Listed (s ++ t)) : 0 ≤ openLists s := by
  generalize htext : s ++ t = text at h
  induction h generalizing s t with
  | nil => simp [(List.append_eq_nil_iff.1 htext).1]
  | cons hc h ih =>
    cases s with
    | nil => simp
    | cons d s =>
      obtain ⟨rfl, hrest⟩ := List.cons.inj htext
      rw [openLists_cons_of_ne hc]
      exact ih hrest
  | @list inner rest hs ht ihs iht =>
    cases s with
    | nil => simp
    | cons d s =>
      obtain ⟨rfl, hrest⟩ := List.cons.inj htext
      rw [openLists_open]
      rcases List.append_eq_append_iff.1 hrest with ⟨u, rfl, -⟩ | ⟨u, rfl, hu⟩
      · have := ihs rfl
        omega
      · cases u with
        | nil =>
          have := hs.openLists_eq
          rw [List.append_nil]
          omega
        | cons e u =>
          obtain ⟨rfl, htail⟩ := List.cons.inj hu
          have := iht htail.symm
          have := hs.openLists_eq
          rw [openLists_append, openLists_close]
          omega

/-- A text that closes more lists than it opens has a first bracket that closes none of its own. -/
theorem exists_listed_append {t : Text} (h : openLists t < 0) :
    ∃ s rest, t = s ++ ']' :: rest ∧ Listed s := by
  match t with
  | [] => exact absurd h (by simp)
  | c :: t =>
    by_cases hclose : c = ']'
    · exact ⟨[], t, by rw [hclose]; rfl, .nil⟩
    by_cases hopen : c = '['
    · subst hopen
      rw [openLists_open] at h
      obtain ⟨s, rest, rfl, hs⟩ := @exists_listed_append t (by omega)
      have hcount := hs.openLists_eq
      rw [openLists_append, openLists_close] at h
      obtain ⟨s', rest', rfl, hs'⟩ := @exists_listed_append rest (by omega)
      exact ⟨'[' :: (s ++ ']' :: s'), rest', by simp, .list hs hs'⟩
    · rw [openLists_cons_of_ne ⟨hopen, hclose⟩] at h
      obtain ⟨s, rest, rfl, hs⟩ := exists_listed_append h
      exact ⟨c :: s, rest, rfl, .cons ⟨hopen, hclose⟩ hs⟩
termination_by t.length
decreasing_by all_goals (subst_vars; simp +arith)

/-- A text closes its lists when no beginning closes more lists than it opens, and none is open at
the end. -/
theorem listed_iff {t : Text} :
    Listed t ↔ (∀ s, s <+: t → 0 ≤ openLists s) ∧ openLists t = 0 := by
  constructor
  · intro h
    refine ⟨?_, h.openLists_eq⟩
    rintro s ⟨rest, rfl⟩
    exact h.openLists_nonneg
  · rintro ⟨hbegins, hend⟩
    match t with
    | [] => exact .nil
    | c :: t =>
      by_cases hclose : c = ']'
      · subst hclose
        have := hbegins [']'] ⟨t, rfl⟩
        exact absurd this (by decide)
      by_cases hopen : c = '['
      · subst hopen
        rw [openLists_open] at hend
        obtain ⟨s, rest, rfl, hs⟩ := @exists_listed_append t (by omega)
        have hcount := hs.openLists_eq
        have hlist : ∀ u, openLists ('[' :: (s ++ ']' :: u)) = openLists u := by
          intro u
          rw [openLists_open, openLists_append, openLists_close]
          omega
        refine .list hs (listed_iff.2 ⟨?_, ?_⟩)
        · rintro u ⟨v, rfl⟩
          rw [← hlist]
          exact hbegins _ ⟨v, by simp⟩
        · rw [← hlist, openLists_open]
          exact hend
      · have hc : c ≠ '[' ∧ c ≠ ']' := ⟨hopen, hclose⟩
        refine .cons hc (listed_iff.2 ⟨?_, ?_⟩)
        · rintro u ⟨v, rfl⟩
          rw [← openLists_cons_of_ne hc]
          exact hbegins _ ⟨v, rfl⟩
        · rwa [← openLists_cons_of_ne hc]
termination_by t.length
decreasing_by all_goals (subst_vars; simp +arith)

instance : DecidablePred Listed := fun t =>
  decidable_of_iff ((∀ s ∈ t.inits, 0 ≤ openLists s) ∧ openLists t = 0) <| by
    simp only [List.mem_inits, listed_iff]

/-! ## Inside of a list -/

/-- What stands between the two texts is in a list: between a bracket and its partner. -/
def InList (before after : Text) : Prop :=
  ∃ left inner inner' right, before = left ++ '[' :: inner ∧ after = inner' ++ ']' :: right ∧
    Listed inner ∧ Listed inner'

theorem InList.append (h : InList before after) (s t : Text) :
    InList (s ++ before) (after ++ t) := by
  obtain ⟨left, inner, inner', right, rfl, rfl, hinner, hinner'⟩ := h
  exact ⟨s ++ left, inner, inner', right ++ t, by simp, by simp, hinner, hinner'⟩

/-- A character stands in a list, or the texts around it close their lists. -/
theorem Listed.inList_or (hc : c ≠ '[' ∧ c ≠ ']') (h : Listed (before ++ c :: after)) :
    InList before after ∨ Listed before ∧ Listed after := by
  generalize htext : before ++ c :: after = text at h
  induction h generalizing before after with
  | nil => simp at htext
  | @cons d t hd h ih =>
    cases before with
    | nil =>
      obtain ⟨rfl, rfl⟩ := List.cons.inj htext
      exact .inr ⟨.nil, h⟩
    | cons e before =>
      obtain ⟨rfl, hrest⟩ := List.cons.inj htext
      refine (ih hrest).imp ?_ ?_
      · intro hin
        simpa using hin.append [e] []
      · rintro ⟨hbefore, hafter⟩
        exact ⟨.cons hd hbefore, hafter⟩
  | @list inner rest hs ht ihs iht =>
    cases before with
    | nil => exact absurd (List.cons.inj htext).1 hc.1
    | cons e before =>
      obtain ⟨rfl, hrest⟩ := List.cons.inj htext
      rcases List.append_eq_append_iff.1 hrest with ⟨u, rfl, hu⟩ | ⟨u, rfl, hu⟩
      · -- the character stands in the first list
        cases u with
        | nil => exact absurd (List.cons.inj hu).1 hc.2
        | cons d u =>
          obtain ⟨rfl, rfl⟩ := List.cons.inj hu
          refine .inl ?_
          rcases ihs rfl with hin | ⟨hbefore, hafter⟩
          · simpa using hin.append ['['] (']' :: rest)
          · exact ⟨[], before, u, rest, rfl, rfl, hbefore, hafter⟩
      · -- it stands behind that list
        cases u with
        | nil => exact absurd (List.cons.inj hu).1.symm hc.2
        | cons d u =>
          obtain ⟨rfl, htail⟩ := List.cons.inj hu
          refine (iht htail.symm).imp ?_ ?_
          · intro hin
            simpa using hin.append ('[' :: (inner ++ [']'])) []
          · rintro ⟨hbefore, hafter⟩
            exact ⟨.list hs hbefore, hafter⟩

/-- A character that is no bracket may be left out at the end. -/
theorem Listed.of_concat (h : Listed (t ++ [c])) (hc : c ≠ '[' ∧ c ≠ ']') : Listed t := by
  rcases h.inList_or hc with ⟨left, inner, inner', right, -, hnil, -⟩ | ⟨ht, -⟩
  · exact absurd hnil (by simp)
  · exact ht

/-- In a text that closes its lists, lists are open at a character in a list. -/
theorem InList.openLists_pos (hin : InList before after) (h : Listed (before ++ t)) :
    0 < openLists before := by
  obtain ⟨left, inner, inner', right, rfl, rfl, hinner, -⟩ := hin
  rw [List.append_assoc] at h
  have hleft := h.openLists_nonneg
  have hcount := hinner.openLists_eq
  rw [openLists_append, openLists_open]
  omega

/-- A scan from the left finds a character outside of every list.  Brackets are counted only. -/
def IsOuterFromLeft (before : Text) (c : Char) : Prop :=
  (c ≠ '[' ∧ c ≠ ']') ∧ openLists before = 0

/-- A scan from the right finds a character outside of every list. -/
def IsOuterFromRight (c : Char) (after : Text) : Prop :=
  (c ≠ '[' ∧ c ≠ ']') ∧ closedLists after = 0

namespace Listed

/-- The scans from both sides count the same lists at a character that is no bracket. -/
theorem closedLists_eq (h : Listed (before ++ c :: after)) (hc : c ≠ '[' ∧ c ≠ ']') :
    closedLists after = openLists before := by
  have hcount := h.openLists_eq
  rw [openLists_append, openLists_cons_of_ne hc] at hcount
  rw [closedLists_eq_neg]
  omega

theorem isOuterFromRight_iff (h : Listed (before ++ c :: after)) :
    IsOuterFromRight c after ↔ IsOuterFromLeft before c := by
  refine and_congr_right ?_
  intro hc
  rw [h.closedLists_eq hc]

/-- The scan from the left finds a character outside of every list if it stands in none. -/
theorem isOuterFromLeft_iff (h : Listed (before ++ c :: after)) :
    IsOuterFromLeft before c ↔ (c ≠ '[' ∧ c ≠ ']') ∧ ¬ InList before after := by
  constructor
  · intro hc
    refine ⟨hc.1, ?_⟩
    intro hin
    have := hin.openLists_pos h
    rw [hc.2] at this
    exact absurd this (by decide)
  · rintro ⟨hc, hout⟩
    exact ⟨hc, ((h.inList_or hc).resolve_left hout).1.openLists_eq⟩

/-- The texts around a character outside of every list close their lists. -/
theorem of_isOuterFromLeft (h : Listed (before ++ c :: after)) (hc : IsOuterFromLeft before c) :
    Listed before ∧ Listed after :=
  (h.inList_or hc.1).resolve_left (h.isOuterFromLeft_iff.1 hc).2

end Listed

end Text

/-! ## Operators -/

namespace Split

open Text

variable {tier : Tier} {t : Text} {s : Split}

/-- A text is split at its last operator of a tier, among the characters that are outside of every
list. -/
structure IsLast (outer : Text → Char → Text → Prop) (tier : Tier) (t : Text) (s : Split) :
    Prop where
  /-- There is such an operator. -/
  found : ∃ c, t = s.before ++ c :: s.after ∧ outer s.before c s.after ∧
    Operator.at? tier s.before.reverse c = some s.operator
  /-- There is none behind it. -/
  last : ∀ before c after, t = before ++ c :: after → s.before.length < before.length →
    outer before c after → Operator.at? tier before.reverse c = none

theorem IsLast.imp {outer outer' : Text → Char → Text → Prop} (h : IsLast outer tier t s)
    (houter : ∀ before c after, t = before ++ c :: after →
      (outer before c after ↔ outer' before c after)) : IsLast outer' tier t s := by
  obtain ⟨c, htext, hc, hop⟩ := h.found
  refine ⟨⟨c, htext, (houter _ _ _ htext).1 hc, hop⟩, ?_⟩
  intro before d after htext' hlength hd
  exact h.last before d after htext' hlength ((houter _ _ _ htext').2 hd)

/-- Only the characters of the text matter. -/
theorem isLast_congr {outer outer' : Text → Char → Text → Prop}
    (houter : ∀ before c after, t = before ++ c :: after →
      (outer before c after ↔ outer' before c after)) :
    IsLast outer tier t s ↔ IsLast outer' tier t s := by
  refine ⟨fun h => h.imp houter, fun h => h.imp ?_⟩
  intro before c after htext
  exact (houter before c after htext).symm

/-- One step of the search for an operator. -/
theorem goLeft_cons (c : Char) (after before : Text) :
    goLeft tier after.closedLists after (c :: before) =
      match if after.closedLists = 0 then Operator.at? tier before c else none with
      | some op => some ⟨before.reverse, op, after⟩
      | none => goLeft tier (closedLists (c :: after)) (c :: after) before := by
  have hbracket : ∀ c, c = ']' ∨ c = '[' → Operator.at? tier before c = none := by
    rintro c (rfl | rfl) <;> exact Operator.at?_eq_none (by cases tier <;> rfl)
  rw [goLeft]
  by_cases hclose : c = ']'
  · simp [hclose, hbracket, closedLists_cons]
  · by_cases hopen : c = '['
    · simp [hopen, hbracket, closedLists_cons]
    · have hcount : closedLists (c :: after) = closedLists after := by
        rw [closedLists_cons, if_neg hclose, if_neg hopen]
      rw [hcount]
      exact (if_neg hclose).trans (if_neg hopen)

/-- A place in a beginning of a text that is one character longer is its last one or in the
shorter beginning. -/
theorem eq_or_lt_of_position {start before after after' : Text} {c d : Char}
    (ht : start.reverse ++ d :: after = t) (htext : t = before ++ c :: after')
    (hlength : before.length < (d :: start).length) :
    before.length < start.length ∨ before = start.reverse ∧ c = d ∧ after' = after := by
  rcases Nat.lt_or_ge before.length start.length with hlt | hge
  · exact .inl hlt
  · rw [List.length_cons] at hlength
    have hsame : start.reverse.length = before.length := by
      rw [List.length_reverse]
      omega
    obtain ⟨hbefore, hrest⟩ := List.append_inj (ht.trans htext) hsame
    obtain ⟨rfl, rfl⟩ := List.cons.inj hrest
    exact .inr ⟨hbefore.symm, rfl, rfl⟩

/-- The search in a beginning of a text finds the last operator of the beginning that is outside of
every list.  The induction is on the beginning, which is given in reverse. -/
theorem goLeft_eq_some_iff {start after : Text} (ht : start.reverse ++ after = t) :
    goLeft tier (closedLists after) after start = some s ↔
      IsLast (fun before c after => before.length < start.length ∧ IsOuterFromRight c after)
        tier t s := by
  induction start generalizing after with
  | nil =>
    refine iff_of_false (by simp [goLeft]) ?_
    intro h
    obtain ⟨c, -, hc, -⟩ := h.found
    exact absurd hc.1 (by simp)
  | cons d start ih =>
    rw [List.reverse_cons, List.append_assoc, List.singleton_append] at ht
    rw [goLeft_cons]
    cases hfound : if closedLists after = 0 then Operator.at? tier start d else none with
    | some op =>
      have hcount : closedLists after = 0 := by
        by_contra hne
        rw [if_neg hne] at hfound
        cases hfound
      rw [if_pos hcount] at hfound
      have hbracket := ne_bracket_of_operator? (operator?_of_at? hfound)
      have houter : IsOuterFromRight d after := ⟨hbracket.symm, hcount⟩
      constructor
      · intro h
        cases h
        refine ⟨⟨d, ht.symm, ⟨by simp, houter⟩, by simpa using hfound⟩, ?_⟩
        intro before c after' htext hlength hlimit
        simp only [List.length_reverse, List.length_cons] at hlength hlimit
        omega
      · intro h
        obtain ⟨c, htext, hc, hop⟩ := h.found
        rcases eq_or_lt_of_position ht htext hc.1 with hlt | ⟨hbefore, rfl, hafter⟩
        · -- the operator that the search finds stands behind the one that is said to be the last
          have hnone := h.last start.reverse d after ht.symm (by simpa using hlt)
            ⟨by simp, houter⟩
          rw [List.reverse_reverse, hfound] at hnone
          cases hnone
        · rw [hbefore, List.reverse_reverse, hfound] at hop
          rw [Option.some.inj hop, ← hbefore, ← hafter]
    | none =>
      have hnone : IsOuterFromRight d after → Operator.at? tier start d = none := by
        intro houter
        rwa [if_pos houter.2] at hfound
      show goLeft tier (closedLists (d :: after)) (d :: after) start = some s ↔ _
      rw [ih ht]
      constructor
      · intro h
        obtain ⟨c, htext, hc, hop⟩ := h.found
        refine ⟨⟨c, htext, ⟨Nat.lt_succ_of_lt hc.1, hc.2⟩, hop⟩, ?_⟩
        intro before e after' htext' hlength he
        rcases eq_or_lt_of_position ht htext' he.1 with hlt | ⟨rfl, rfl, rfl⟩
        · exact h.last before e after' htext' hlength ⟨hlt, he.2⟩
        · rw [List.reverse_reverse]
          exact hnone he.2
      · intro h
        obtain ⟨c, htext, hc, hop⟩ := h.found
        refine ⟨⟨c, htext, ⟨?_, hc.2⟩, hop⟩, ?_⟩
        · rcases eq_or_lt_of_position ht htext hc.1 with hlt | ⟨hbefore, rfl, hafter⟩
          · exact hlt
          · rw [hafter] at hc
            rw [hbefore, List.reverse_reverse, hnone hc.2] at hop
            cases hop
        · intro before e after' htext' hlength he
          exact h.last before e after' htext' hlength ⟨Nat.lt_succ_of_lt he.1, he.2⟩

/-- A text is split at its last operator of a tier that the scan from the right finds outside of
every list. -/
theorem atTier?_eq_some_iff :
    atTier? tier t = some s ↔ IsLast (fun _ c after => IsOuterFromRight c after) tier t s := by
  have hsearch := @goLeft_eq_some_iff tier t s t.reverse [] (by simp)
  have hlimit : ∀ before c after, t = before ++ c :: after →
      (before.length < t.reverse.length ∧ IsOuterFromRight c after ↔ IsOuterFromRight c after) := by
    intro before c after htext
    refine and_iff_right ?_
    rw [htext, List.length_reverse, List.length_append, List.length_cons]
    omega
  rw [atTier?]
  exact hsearch.trans (isLast_congr hlimit)

/-- In a text that closes its lists, the scan from the left agrees. -/
theorem atTier?_eq_some_iff_of_listed (h : t.Listed) :
    atTier? tier t = some s ↔ IsLast (fun before c _ => IsOuterFromLeft before c) tier t s := by
  have hsides : ∀ before c after, t = before ++ c :: after →
      (IsOuterFromRight c after ↔ IsOuterFromLeft before c) := by
    rintro before c after rfl
    exact h.isOuterFromRight_iff
  rw [atTier?_eq_some_iff]
  exact isLast_congr hsides

/-- The operands of a text that closes its lists close theirs. -/
theorem listed_of_loosest? (h : t.Listed) (hsplit : loosest? t = some s) :
    s.before.Listed ∧ s.after.Listed := by
  obtain ⟨tier, -, htier⟩ := List.exists_of_findSome?_eq_some hsplit
  obtain ⟨c, htext, hc, -⟩ := ((atTier?_eq_some_iff_of_listed h).1 htier).found
  rw [htext] at h
  exact h.of_isOuterFromLeft hc

end Split

/-! ## Separators -/

namespace ArgumentList

open Text

variable {t before after : Text} {c : Char}

/-- A comma is found when one is outside of every list. -/
theorem hasComma_iff (depth : Int) :
    hasComma depth t = true ↔
      ∃ before after, t = before ++ ',' :: after ∧ before.foldl depthAfter depth = 0 := by
  constructor
  · intro h
    induction t generalizing depth with
    | nil => cases h
    | cons c t ih =>
      rw [hasComma, Bool.or_eq_true, Bool.and_eq_true, beq_iff_eq, beq_iff_eq] at h
      rcases h with ⟨rfl, hdepth⟩ | h
      · exact ⟨[], t, rfl, hdepth⟩
      · obtain ⟨before, after, rfl, hdepth⟩ := ih _ h
        exact ⟨c :: before, after, rfl, hdepth⟩
  · rintro ⟨before, after, rfl, hdepth⟩
    rw [hasComma_append_foldl, hdepth]
    simp [hasComma]

theorem length_semicolons (depth : Int) (t : Text) : (semicolons depth t).length = t.length := by
  induction t generalizing depth with
  | nil => rfl
  | cons c t ih => rw [semicolons, List.length_cons, ih, List.length_cons]

/-- The characters of a text when a list is made of it. -/
theorem getElem?_semicolons (before : Text) (c : Char) (after : Text) :
    (semicolons 0 (before ++ c :: after))[before.length]? =
      some (if c = ',' ∧ openLists before = 0 then ';' else c) := by
  have hlength := length_semicolons 0 before
  rw [semicolons_append_foldl, List.getElem?_append_right hlength.le, hlength, Nat.sub_self,
    semicolons]
  simp only [List.getElem?_cons_zero, Bool.and_eq_true, decide_eq_true_eq]
  rfl

/-- The pieces of a text with semicolons between them are the text. -/
theorem intercalate_items (depth : Int) (item t : Text) :
    [';'].intercalate (items depth item t) = item.reverse ++ t := by
  obtain ⟨first, rest, hitems, htext⟩ := exists_of_items depth item t
  rw [hitems, intercalate_cons, htext]

/-- A text is cut at a semicolon outside of every list. -/
theorem items_append_of_foldl {depth : Int} (h : before.foldl depthAfter depth = 0)
    (item after : Text) :
    items depth item (before ++ ';' :: after) = items depth item before ++ items 0 [] after := by
  induction before generalizing depth item with
  | nil =>
    obtain rfl : depth = 0 := h
    simp [items]
  | cons c before ih =>
    rw [List.foldl_cons] at h
    rw [List.cons_append, items, items]
    split
    · rename_i hc
      rw [Bool.and_eq_true, decide_eq_true_eq, decide_eq_true_eq] at hc
      rw [hc.1, hc.2, depthAfter_of_ne 0 (by decide) (by decide)] at h
      rw [hc.2, ih h, List.cons_append]
    · exact ih h _

/-- A text is cut at semicolons outside of every list only. -/
theorem exists_of_items_eq_append {depth : Int} {item : Text} {pieces pieces' : List Text}
    (h : items depth item t = pieces ++ pieces') (hne : pieces ≠ []) (hne' : pieces' ≠ []) :
    ∃ before after, t = before ++ ';' :: after ∧ before.foldl depthAfter depth = 0 ∧
      pieces = items depth item before := by
  induction t generalizing depth item pieces with
  | nil =>
    have hlength := congrArg List.length h
    have := List.length_pos_iff.2 hne
    have := List.length_pos_iff.2 hne'
    simp only [items, List.length_singleton, List.length_append] at hlength
    omega
  | cons c t ih =>
    obtain ⟨piece, pieces, rfl⟩ := List.exists_cons_of_ne_nil hne
    rw [items] at h
    split at h
    · rename_i hc
      rw [Bool.and_eq_true, decide_eq_true_eq, decide_eq_true_eq] at hc
      obtain ⟨rfl, rfl⟩ := hc
      obtain ⟨rfl, hrest⟩ := List.cons.inj h
      by_cases hnil : pieces = []
      · exact ⟨[], t, rfl, rfl, by rw [hnil, items]⟩
      · obtain ⟨before, after, rfl, hdepth, rfl⟩ := ih hrest hnil
        refine ⟨';' :: before, after, rfl, ?_, by simp [items]⟩
        rw [List.foldl_cons, depthAfter_of_ne 0 (by decide) (by decide), hdepth]
    · rename_i hc
      obtain ⟨before, after, rfl, hdepth, hpieces⟩ := ih h hne
      refine ⟨c :: before, after, rfl, hdepth, ?_⟩
      rw [hpieces, items, if_neg hc]

theorem items_ne_nil (depth : Int) (item t : Text) : items depth item t ≠ [] := by
  obtain ⟨first, rest, hitems, -⟩ := exists_of_items depth item t
  simp [hitems]

/-- A text is cut at a semicolon exactly if that is outside of every list. -/
theorem items_append_iff (before after : Text) :
    items 0 [] (before ++ ';' :: after) = items 0 [] before ++ items 0 [] after ↔
      openLists before = 0 := by
  constructor
  · intro h
    obtain ⟨start, rest, -, hdepth, hpieces⟩ :=
      exists_of_items_eq_append h (items_ne_nil 0 [] before) (items_ne_nil 0 [] after)
    have htext := congrArg [';'].intercalate hpieces
    rw [intercalate_items, intercalate_items] at htext
    rwa [show before = start from htext]
  · intro h
    exact items_append_of_foldl h [] after

/-- The pieces of a text that closes its lists close theirs. -/
theorem listed_of_mem_items {start item : Text} (h : Listed (start.reverse ++ t))
    (hitem : item ∈ items (openLists start.reverse) start t) : Listed item := by
  induction t generalizing start with
  | nil =>
    rw [items, List.mem_singleton] at hitem
    rw [hitem]
    simpa using h
  | cons c t ih =>
    rw [items] at hitem
    split at hitem
    · rename_i hc
      rw [Bool.and_eq_true, decide_eq_true_eq, decide_eq_true_eq] at hc
      obtain ⟨rfl, hcount⟩ := hc
      obtain ⟨hstart, hrest⟩ := h.of_isOuterFromLeft ⟨by decide, hcount⟩
      rcases List.mem_cons.1 hitem with rfl | hitem
      · exact hstart
      · rw [hcount] at hitem
        exact @ih [] hrest hitem
    · have hcount : depthAfter (openLists start.reverse) c = openLists (c :: start).reverse := by
        rw [List.reverse_cons, openLists, openLists, List.foldl_append]
        rfl
      rw [hcount] at hitem
      exact ih (by simpa using h) hitem

/-- The items of a list close their lists if the text of the list does. -/
theorem listed_of_mem_read? {args : List Text} {item : Text} (h : Listed t)
    (hread : read? t = some args) (hitem : item ∈ args) : Listed item := by
  obtain ⟨first, pieces, -, htext⟩ := exists_of_read? hread
  rw [htext] at h
  obtain ⟨inner, behind, hinside, hinner, -⟩ := h.exists_of_open
  rw [htext, hinside, read?, closing?_eq hinner] at hread
  split at hread
  · rename_i hlength
    rw [List.length_append, List.length_cons, Option.some.injEq] at hlength
    obtain rfl : behind = [] := List.eq_nil_of_length_eq_zero (by omega)
    rw [List.dropLast_concat, Option.some.injEq] at hread
    rw [← hread] at hitem
    exact @listed_of_mem_items inner [] item hinner hitem
  · cases hread

end ArgumentList

/-- What stands behind a name closes its lists if the whole text does. -/
theorem Naming.listed_rest {t : Text} {n : Naming} (h : t.Listed) (hread : read? t = some n) :
    n.rest.Listed := by
  obtain ⟨start, htext, hstart⟩ := exists_isItem hread
  rw [htext] at h
  exact h.of_append fun c hc => ⟨(hstart c hc).1, (hstart c hc).2.1⟩

/-! ## All scans -/

open Text ArgumentList

/-- The scans of a text agree on which characters are outside of every list. -/
structure Text.ScansAgree (t : Text) : Prop where
  /-- A character is outside for a scan from the right exactly if it is for one from the left,
  which is so if it is no bracket and does not stand between a bracket and its partner. -/
  outer : ∀ before c after, t = before ++ c :: after →
    (IsOuterFromRight c after ↔ IsOuterFromLeft before c) ∧
      (IsOuterFromLeft before c ↔ (c ≠ '[' ∧ c ≠ ']') ∧ ¬ InList before after)
  /-- The text is split at the last operator of a tier that is outside. -/
  operator : ∀ tier s, Split.atTier? tier t = some s ↔
    s.IsLast (fun before c _ => IsOuterFromLeft before c) tier t
  /-- A comma is found if one is outside. -/
  comma : hasComma 0 t = true ↔
    ∃ before after, t = before ++ ',' :: after ∧ IsOuterFromLeft before ','
  /-- The commas that are outside become semicolons, and nothing else changes. -/
  semicolon : ∀ before c after, t = before ++ c :: after →
    (semicolons 0 t)[before.length]? =
      some (if c = ',' ∧ openLists before = 0 then ';' else c)
  /-- The text is cut at the semicolons that are outside. -/
  cut : ∀ before after, t = before ++ ';' :: after →
    (items 0 [] t = items 0 [] before ++ items 0 [] after ↔ IsOuterFromLeft before ';')
  /-- The pieces with semicolons between them are the text. -/
  join : [';'].intercalate (items 0 [] t) = t
  /-- The bracket that closes the list at the beginning is the partner of the first one. -/
  partner : ∀ rest, t = '[' :: rest → ∃ inner behind, rest = inner ++ ']' :: behind ∧
    Listed inner ∧ Listed behind ∧ closing? 0 0 t = some (inner.length + 1)

/-- In a text that closes its lists, all scans agree. -/
theorem Text.Listed.scansAgree {t : Text} (h : Listed t) : t.ScansAgree where
  outer := by
    rintro before c after rfl
    exact ⟨h.isOuterFromRight_iff, h.isOuterFromLeft_iff⟩
  operator tier s := Split.atTier?_eq_some_iff_of_listed h
  comma := by
    rw [hasComma_iff]
    have hcomma : ∀ before : Text, before.foldl depthAfter 0 = 0 ↔ IsOuterFromLeft before ',' :=
      fun before => (and_iff_right (by decide)).symm
    simp only [hcomma]
  semicolon := by
    rintro before c after rfl
    exact getElem?_semicolons before c after
  cut := by
    rintro before after rfl
    rw [items_append_iff]
    exact (and_iff_right (by decide)).symm
  join := intercalate_items 0 [] t
  partner := by
    rintro rest rfl
    obtain ⟨inner, behind, rfl, hinner, hbehind⟩ := h.exists_of_open
    exact ⟨inner, behind, rfl, hinner, hbehind, closing?_eq hinner behind⟩

end Reckoner
