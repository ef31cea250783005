/-!
# Slices

The part of a list before a position, and the part from a position on.  A negative position is
counted from the end.
-/

namespace Reckoner

/-- The beginning of a list up to a position, which is counted from the end when it is negative. -/
def takeTo {α : Type} (stop : Int) (xs : List α) : List α :=
  if 0 ≤ stop then xs.take stop.toNat else xs.take (xs.length - stop.natAbs)

/-- The rest of a list from a position on, which is counted from the end when it is negative. -/
def dropTo {α : Type} (start : Int) (xs : List α) : List α :=
  if 0 ≤ start then xs.drop start.toNat else xs.drop (xs.length - start.natAbs)

end Reckoner
