import Mathlib
import Reckoner.Proofs.Expression.Term

/-!
# Where a name ends

A name is looked for in the lowercase form of a text and cut from the text itself.  The lowercase
form can be longer than the text, and some foreign letters are lowered to ordinary ones.  The two
ends agree all the same (`Symbol.atStart?_spec`): the part that is cut off is as long as the
name and spells it, but for a combining dot that the capital `İ` leaves at its end.
-/

namespace Reckoner

namespace Symbol

/-- The beginning of a text that is cut off for a name, with the text behind it: it is as long as
the name and spells it, and the text behind it is lowered as before. -/
structure Aligned (s : Symbol) (cut rest : Text) : Prop where
  length_eq : cut.length = s.letters.length
  lowercase_eq : cut.lowercase = s.letters ∨ cut.lowercase = s.letters ++ ['\u0307']
  lowercase_append : (cut ++ rest).lowercase =
    cut.lowercase ++ Text.lowercaseFrom cut.reverse rest

theorem exists_aligned {s : Symbol} {t : Text} (h : s.letters <+: t.lowercase) :
    ∃ cut rest, t = cut ++ rest ∧ s.Aligned cut rest := by
  obtain ⟨cut, rest, rfl, hcut, hspells⟩ :=
    Text.exists_spells (fun _ => toNat_lt_of_mem_letters) h
  have happend {lowered : Text} (h : Text.Spells cut lowered) :
      (cut ++ rest).lowercase = cut.lowercase ++ Text.lowercaseFrom cut.reverse rest := by
    rw [h.lowercase_eq, Text.lowercase, h [] rest, List.append_nil]
  refine ⟨cut, rest, rfl, hcut.length_eq, ?_, hspells.elim happend happend⟩
  exact hspells.imp Text.Spells.lowercase_eq Text.Spells.lowercase_eq

theorem aligned_of_atStart? {t : Text} {s : Symbol} (h : atStart? t = some s) :
    s.Aligned (t.take s.letters.length) (t.drop s.letters.length) := by
  obtain ⟨cut, rest, rfl, haligned⟩ := exists_aligned (prefix_of_atStart? h)
  rwa [← haligned.length_eq, List.take_left, List.drop_left]

/-- A name is found just when one begins the lowercase form of the text, and then it is the longest
one.  The text is long enough for the cut, and the part that is cut off for the name, behind a
factor too, spells the name and nothing but it. -/
theorem atStart?_spec (t : Text) :
    ((∃ s, atStart? t = some s) ↔ ∃ s : Symbol, s.letters <+: t.lowercase) ∧
    (∀ s, atStart? t = some s →
      s.letters <+: t.lowercase ∧
      (∀ s' : Symbol, s'.letters <+: t.lowercase → s'.letters.length ≤ s.letters.length) ∧
      s.letters.length ≤ t.length ∧
      s.Aligned (t.take s.letters.length) (t.drop s.letters.length)) ∧
    ∀ n, Naming.read? t = some n → ∃ name,
      t = n.factor.elim [] Literal.text ++ (name ++ n.rest) ∧ n.symbol.Aligned name n.rest := by
  refine ⟨exists_atStart?_iff, ?_, ?_⟩
  · intro s hs
    have haligned := aligned_of_atStart? hs
    refine ⟨prefix_of_atStart? hs, fun _ => length_le_of_atStart? hs, ?_, haligned⟩
    have hlength := haligned.length_eq
    rw [List.length_take] at hlength
    omega
  · intro n hn
    obtain ⟨name, ht, hletters, hfound, -⟩ := Naming.exists_of_read? hn
    have haligned := aligned_of_atStart? hfound
    rw [← hletters.length_eq, List.take_left, List.drop_left] at haligned
    exact ⟨name, ht, haligned⟩

-- the dot that the capital leaves stands in the lowercase form and not in the text
example : atStart? ['p', 'İ', '2'] = some (constant .pi) ∧
    Text.lowercase ['p', 'İ'] = ['p', 'i', '\u0307'] := by
  decide

end Symbol

end Reckoner
