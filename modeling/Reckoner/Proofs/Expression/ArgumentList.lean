import Mathlib
import Reckoner.Proofs.Expression.Split

/-!
# Argument lists

A group with commas is written as a list of its pieces in square brackets.  What is read as a list
is its items in brackets, with semicolons between them (`ArgumentList.exists_of_read?`).
-/

namespace Reckoner.ArgumentList

/-- Whether a text may be a piece of a list without inner lists. -/
def IsItem (t : Text) : Prop := ∀ c ∈ t, c ≠ '[' ∧ c ≠ ']' ∧ c ≠ ',' ∧ c ≠ ';'

/-- Some pieces, each with a separator before it. -/
def separated (separator : Char) (pieces : List Text) : Text := pieces.flatMap (separator :: ·)

theorem depthAfter_of_ne {c : Char} (depth : Int) (h : c ≠ '[') (h' : c ≠ ']') :
    depthAfter depth c = depth := by
  rw [depthAfter, if_neg h, if_neg h']

theorem depthAfter_open (depth : Int) : depthAfter depth '[' = depth + 1 := rfl

theorem depthAfter_close (depth : Int) : depthAfter (depth + 1) ']' = depth := by
  rw [depthAfter, if_neg (by decide), if_pos rfl, Int.add_sub_cancel]

theorem hasComma_eq_false {t : Text} (h : ',' ∉ t) (depth : Int) : hasComma depth t = false := by
  induction t generalizing depth with
  | nil => rfl
  | cons c t ih =>
    rw [List.mem_cons, not_or] at h
    rw [hasComma, ih h.2]
    simp [Ne.symm h.1]

/-- A list is written with the characters of the group and semicolons. -/
theorem mem_semicolons {depth : Int} {t : Text} {c : Char}
    (h : c ∈ semicolons depth t) : c = ';' ∨ c ∈ t := by
  induction t generalizing depth with
  | nil => simp [semicolons] at h
  | cons d t ih =>
    rw [semicolons, List.mem_cons] at h
    rcases h with h | h
    · split at h
      · exact .inl h
      · exact .inr (by simp [h])
    · exact (ih h).imp_right (List.mem_cons_of_mem _)

/-! ## Pieces -/

theorem mem_separated {separator c : Char} {pieces : List Text}
    (h : c ∈ separated separator pieces) : c = separator ∨ ∃ t ∈ pieces, c ∈ t := by
  obtain ⟨t, ht, hc⟩ := List.mem_flatMap.1 h
  rcases List.mem_cons.1 hc with hc | hc
  · exact .inl hc
  · exact .inr ⟨t, ht, hc⟩

/-- Pieces with a separator between them. -/
theorem intercalate_cons (separator : Char) (first : Text) (rest : List Text) :
    [separator].intercalate (first :: rest) = first ++ separated separator rest := by
  induction rest generalizing first with
  | nil => simp [separated]
  | cons t rest ih =>
    rw [List.intercalate_cons_cons, ih, separated, separated, List.flatMap_cons]
    simp

/-- A literal may be a piece of a list. -/
theorem isItem_literal {l : Literal} (h : l.WellFormed) : IsItem l.text := by
  intro c hc
  have hletter := Literal.isLetter_of_mem h c hc
  refine ⟨?_, ?_, ?_, ?_⟩ <;>
  · rintro rfl
    exact absurd hletter (by decide)

/-! ## A list as it is read -/

/-- The bracket that closes a list stands where it is found. -/
theorem exists_of_closing? {depth : Int} {position n : Nat} {t : Text}
    (h : closing? depth position t = some n) :
    ∃ u v, t = u ++ ']' :: v ∧ n = position + u.length := by
  induction t generalizing depth position with
  | nil => cases h
  | cons c t ih =>
    rw [closing?] at h
    split at h
    · rename_i hc
      rw [Bool.and_eq_true, decide_eq_true_eq, decide_eq_true_eq] at hc
      exact ⟨[], t, by rw [hc.1]; rfl, (Option.some.inj h).symm⟩
    · obtain ⟨u, v, rfl, rfl⟩ := ih h
      refine ⟨c :: u, v, rfl, ?_⟩
      rw [List.length_cons]
      omega

/-- The items of a text are the text again, with semicolons between them. -/
theorem exists_of_items (depth : Int) (acc t : Text) :
    ∃ first rest, items depth acc t = first :: rest ∧
      first ++ separated ';' rest = acc.reverse ++ t := by
  induction t generalizing depth acc with
  | nil => exact ⟨acc.reverse, [], rfl, rfl⟩
  | cons c t ih =>
    rw [items]
    split
    · rename_i hc
      rw [Bool.and_eq_true, decide_eq_true_eq, decide_eq_true_eq] at hc
      obtain ⟨first, rest, hitems, htext⟩ := ih depth []
      refine ⟨acc.reverse, first :: rest, by rw [hitems], ?_⟩
      rw [List.reverse_nil, List.nil_append] at htext
      rw [separated, List.flatMap_cons, hc.1, List.cons_append, ← htext]
      rfl
    · obtain ⟨first, rest, hitems, htext⟩ := ih (depthAfter depth c) (c :: acc)
      exact ⟨first, rest, hitems, by rw [htext, List.reverse_cons, List.append_assoc]; rfl⟩

/-- A list is its items in brackets, with semicolons between them. -/
theorem exists_of_read? {t : Text} {args : List Text} (h : read? t = some args) :
    ∃ first rest, args = first :: rest ∧ t = '[' :: (first ++ separated ';' rest ++ [']']) := by
  cases t with
  | nil => cases h
  | cons c t =>
    by_cases hc : c = '['
    · subst hc
      rw [read?] at h
      split at h
      · rename_i hclosing
        obtain ⟨u, v, htext, hlength⟩ := exists_of_closing? hclosing
        cases u with
        | nil => exact absurd (List.cons.inj htext).1 (by decide)
        | cons d u =>
          obtain ⟨rfl, rfl⟩ : '[' = d ∧ t = u ++ ']' :: v := List.cons.inj htext
          obtain rfl : v = [] := by
            refine List.eq_nil_of_length_eq_zero ?_
            rw [List.length_append, List.length_cons, List.length_cons] at hlength
            omega
          obtain ⟨first, rest, hitems, hinner⟩ := exists_of_items 0 [] u
          rw [List.reverse_nil, List.nil_append] at hinner
          rw [List.dropLast_concat, hitems] at h
          exact ⟨first, rest, (Option.some.inj h).symm, by rw [hinner]⟩
      · cases h
    · rw [read?.eq_2] at h
      · cases h
      · rintro rest heq
        exact hc (List.cons.inj heq).1

end Reckoner.ArgumentList
