/-!
# The room for levels

A text is read level by level, and the stack that the program runs on has room for so many of them.
How many there are depends on the system and on who calls the program, so the stack is taken as an
instance, and what is proved holds of every stack that has room for some hundred levels.
-/

namespace Reckoner

/-- The stack that the program runs on. -/
class Stack where
  /-- How many levels a text may be nested, everything that a level calls having room besides. -/
  levels : Nat
  /-- How many levels an item of an argument list takes besides its own. -/
  itemCharge : Nat
  /-- There is room for some hundred levels. -/
  le_levels : 700 ≤ levels
  /-- An item takes four levels at most. -/
  itemCharge_le : itemCharge ≤ 3

/-- A stack with room for a thousand calls, of which the caller and the helpers of the last level
take a few. -/
instance Stack.standard : Stack where
  levels := 995
  itemCharge := 3
  le_levels := by decide
  itemCharge_le := by decide

namespace Stack

variable [Stack]

/-- How many levels an item of a list may be nested, if the list is all of a text. -/
def itemLevels : Nat := levels - 1 - itemCharge

theorem lt_levels {k : Nat} (h : k < 700) : k < levels := Nat.lt_of_lt_of_le h le_levels

/-- A construct that takes a few levels has room. -/
theorem exists_levels_eq {k : Nat} (h : k ≤ 700) : ∃ room, levels = room + k :=
  Nat.exists_eq_add_of_le' (Nat.le_trans h le_levels)

end Stack

end Reckoner
