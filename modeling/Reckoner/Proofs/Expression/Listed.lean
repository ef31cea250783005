import Mathlib
import Reckoner.Proofs.Expression.Balance
import Reckoner.Proofs.Expression.Term

/-!
# Texts that close their lists

Some texts close every list that they open (`Text.Listed`).  In brackets, such a text is passed in
the search for an operator (`Split.passes_brackets`), and the bracket that closes the list is the
one behind it (`ArgumentList.read?_eq_none`).
-/

namespace Reckoner

namespace Text

/-! ## Lists inside of each other -/

/-- A text that closes the lists it opens. -/
inductive Listed : Text → Prop where
  /-- Nothing. -/
  | nil : Listed []
  /-- A character that is no bracket. -/
  | cons {c : Char} {t : Text} (hc : c ≠ '[' ∧ c ≠ ']') (h : Listed t) : Listed (c :: t)
  /-- A list. -/
  | list {s t : Text} (hs : Listed s) (ht : Listed t) : Listed ('[' :: (s ++ ']' :: t))

variable {s t u : Text}

theorem listed_of_ne (h : ∀ c ∈ t, c ≠ '[' ∧ c ≠ ']') : Listed t := by
  induction t with
  | nil => exact .nil
  | cons c t ih =>
    obtain ⟨hc, ht⟩ := List.forall_mem_cons.1 h
    exact .cons hc (ih ht)

theorem Listed.append (hs : Listed s) (ht : Listed t) : Listed (s ++ t) := by
  induction hs with
  | nil => exact ht
  | cons hc h ih => exact .cons hc ih
  | list hs hs' ihs ihs' => simpa using hs.list ihs'

/-- Semicolons for commas change no list. -/
theorem Listed.semicolons (h : Listed t) (depth : Int) :
    Listed (ArgumentList.semicolons depth t) := by
  induction h generalizing depth with
  | nil => exact .nil
  | @cons c t hc h ih =>
    rw [ArgumentList.semicolons]
    refine .cons ?_ (ih _)
    split
    · decide
    · exact hc
  | @list s t hs ht ihs iht =>
    rw [ArgumentList.semicolons, ArgumentList.semicolons_append_foldl, ArgumentList.semicolons,
      if_neg (by simp), if_neg (by simp)]
    exact .list (ihs _) (iht _)

/-! ## Lists in brackets -/

/-- Inside of a list, the search for an operator passes a text that closes its lists. -/
theorem Listed.goLeft (h : Listed t) {tier : Tier} {depth : Int} (hdepth : 0 < depth)
    (after before : Text) :
    Split.goLeft tier depth after (t.reverse ++ before) =
      Split.goLeft tier depth (t ++ after) before := by
  induction h generalizing depth after before with
  | nil => rfl
  | @cons c t hc h ih =>
    rw [List.reverse_cons, List.append_assoc, ih hdepth, List.singleton_append, Split.goLeft,
      if_neg hc.2, if_neg hc.1, if_neg hdepth.ne']
    rfl
  | @list s t hs ht ihs iht =>
    have hreverse : ('[' :: (s ++ ']' :: t)).reverse ++ before =
        t.reverse ++ ']' :: (s.reverse ++ '[' :: before) := by simp
    rw [hreverse, iht hdepth, Split.goLeft, if_pos rfl, ihs (by omega), Split.goLeft,
      if_neg (by decide), if_pos rfl]
    simp

/-- The bracket that closes a list is not in a text that closes its lists. -/
theorem Listed.closing? (h : Listed t) {depth : Int} (hdepth : 0 < depth) (position : Nat)
    (rest : Text) :
    ArgumentList.closing? depth position (t ++ rest) =
      ArgumentList.closing? depth (position + t.length) rest := by
  induction h generalizing depth position rest with
  | nil => rfl
  | @cons c t hc h ih =>
    rw [List.cons_append, ArgumentList.closing?, if_neg (by simp [hc.2]),
      ArgumentList.depthAfter_of_ne depth hc.1 hc.2, ih hdepth, List.length_cons, Nat.add_assoc,
      Nat.add_comm 1]
  | @list s t hs ht ihs iht =>
    rw [List.cons_append, ArgumentList.closing?, if_neg (by simp), ArgumentList.depthAfter_open,
      List.append_assoc, ihs (by omega), List.cons_append, ArgumentList.closing?,
      if_neg (by simp; omega), ArgumentList.depthAfter_close, iht hdepth]
    congr 1
    simp only [List.length_cons, List.length_append]
    omega

end Text

/-- A list of lists is passed. -/
theorem Split.passes_brackets {t : Text} (h : t.Listed) (tier : Tier) (before : Text) :
    Passes tier before ('[' :: (t ++ [']'])) := by
  intro after
  have hreverse : ('[' :: (t ++ [']'])).reverse ++ before =
      ']' :: (t.reverse ++ '[' :: before) := by
    simp
  rw [hreverse, goLeft, if_pos rfl, h.goLeft (by decide), goLeft, if_neg (by decide), if_pos rfl]
  simp

namespace ArgumentList

/-- The bracket that closes the list at the beginning of a text is its partner. -/
theorem closing?_eq {t : Text} (h : t.Listed) (rest : Text) :
    closing? 0 0 ('[' :: (t ++ ']' :: rest)) = some (t.length + 1) := by
  rw [closing?, if_neg (by decide), show depthAfter 0 '[' = 1 from rfl, h.closing? (by decide),
    closing?, if_pos (by decide), Nat.add_comm]

/-- A list with something behind it is no list. -/
theorem read?_eq_none {t rest : Text} (h : t.Listed) (hrest : rest ≠ []) :
    read? ('[' :: (t ++ [']']) ++ rest) = none := by
  have hpositive := List.length_pos_iff.2 hrest
  have htext : '[' :: (t ++ [']']) ++ rest = '[' :: (t ++ ']' :: rest) := by simp
  rw [htext, read?, closing?_eq h, if_neg]
  simp only [List.length_append, List.length_cons, Option.some.injEq]
  omega

end ArgumentList

end Reckoner
