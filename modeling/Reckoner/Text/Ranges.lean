/-!
# Texts and ranges of code points

A text is a list of characters, so that the grammar can be read off its definitions by recursion.
The character classes of the standard are lists of ranges of code points.
-/

namespace Reckoner

/-- A text as the list of its code points. -/
abbrev Text := List Char

namespace Text

/-- Whether the character lies in one of the ranges; both ends belong to a range. -/
def inRanges (ranges : List (Nat × Nat)) (c : Char) : Bool :=
  ranges.any fun r => r.1 ≤ c.toNat && c.toNat ≤ r.2

theorem inRanges_iff {ranges : List (Nat × Nat)} {c : Char} :
    inRanges ranges c = true ↔ ∃ r ∈ ranges, r.1 ≤ c.toNat ∧ c.toNat ≤ r.2 := by
  simp [inRanges]

end Text

end Reckoner
