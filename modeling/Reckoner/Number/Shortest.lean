import Reckoner.Number.Binary
import Reckoner.Number.Decimal

/-!
# The shortest decimal of a double

A double stands for every number that rounds to it.  Of the decimal numbers among them, the
shortest is the one on the coarsest grid of multiples of a power of ten, and of two on that grid
the nearer one.  It is the shortest text that reads back as the same double.
-/

namespace Reckoner.Number

/-! ## The numbers that round to a double -/

/-- The numbers that round to one double. -/
structure Cell where
  /-- The lower end. -/
  low : Rat
  /-- The upper end. -/
  high : Rat
  /-- Whether the two ends round to the double too. -/
  closed : Bool

/-- Whether a number rounds to the double of the cell. -/
def Cell.holds (c : Cell) (r : Rat) : Bool :=
  if c.closed then c.low ≤ r && r ≤ c.high else c.low < r && r < c.high

/-- The cell of a positive magnitude.  Below a power of two the doubles lie twice as dense, so the
lower half of its cell is half as wide; ties go to even mantissas. -/
def Scaled.cell (s : Scaled) : Cell :=
  let half := (2 : Rat) ^ (s.exponent - 1)
  let below :=
    if s.mantissa = leastFullMantissa && leastExponent < s.exponent then half / 2 else half
  ⟨s.toRat - below, s.toRat + half, s.mantissa % 2 = 0⟩

/-! ## The search over decimal grids -/

/-- The multiple of `10 ^ k`, as a count of steps, that lies in the cell nearest to its number. -/
def gridPoint? (s : Scaled) (k : Int) : Option Nat :=
  let step := (10 : Rat) ^ k
  let below := (s.toRat / step).floor.toNat
  let above := below + 1
  match s.cell.holds (below * step), s.cell.holds (above * step) with
  | false, false => none
  | true, false => some below
  | false, true => some above
  | true, true =>
    let past := s.toRat - below * step
    let short := above * step - s.toRat
    if past < short then some below
    else if short < past then some above
    else if below % 2 = 0 then some below
    else some above

/-- The number of decimal digits of a natural number. -/
def digitCount (n : Nat) : Nat := (Nat.toDigits 10 n).length

/-- A power of ten that is too coarse a grid for the magnitude, and by two places at most. -/
def Scaled.coarseExponent (s : Scaled) : Int :=
  (digitCount s.toRat.num.natAbs : Int) - digitCount s.toRat.den + 1

/-- The grids to look through: seventeen digits are enough for every double. -/
def gridsToTry : Nat := 22

/-- The first point of a cell met on ever finer grids. -/
def searchGrids (s : Scaled) : Option Decimal :=
  (List.range gridsToTry).findSome? fun (i : Nat) =>
    let k := s.coarseExponent - i
    (gridPoint? s k).map fun digits => ⟨digits, k⟩

/-- All the digits of a magnitude. -/
def Scaled.allDigits (s : Scaled) : Decimal :=
  match s.exponent with
  | .ofNat e => ⟨s.mantissa * Nat.pow 2 e, 0⟩
  | .negSucc e => ⟨s.mantissa * Nat.pow 5 (e + 1), -(e + 1)⟩

/-- The shortest decimal that reads back as the magnitude of a finite double. -/
def shortest (x : Float) : Decimal :=
  match searchGrids (scaled x) with
  | some d => if d.toFloat = x.abs then d else (scaled x).allDigits
  | none => (scaled x).allDigits

end Reckoner.Number
