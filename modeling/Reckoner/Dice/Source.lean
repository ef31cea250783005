/-!
# Sources of dice

A source of dice gives one raw number after the other, without end, and a die takes the remainder
of a raw number by its faces.  A source either goes round a list of raw numbers or steps a linear
congruence over 64-bit words.
-/

namespace Reckoner

/-- A source of raw numbers for dice. -/
inductive DiceSource where
  /-- Goes round the numbers, from the one at the given position. -/
  | cycle (raw : Array Int) (position : Nat)
  /-- Steps a linear congruence from the given state. -/
  | congruence (state : UInt64)
  deriving DecidableEq, Repr

namespace DiceSource

/-- The congruence that starts at a number, taken modulo `2 ^ 64`. -/
def ofSeed (seed : Int) : DiceSource :=
  .congruence (UInt64.ofNat (seed % 18446744073709551616).toNat)

/-- The source that goes round the given numbers. -/
def ofList (raw : List Int) : DiceSource := .cycle raw.toArray 0

/-- One step of the congruence. -/
def nextState (state : UInt64) : UInt64 := 6364136223846793005 * state + 1442695040888963407

/-- The next raw number. -/
def raw : DiceSource → Int
  | .cycle raw position => raw.getD (position % raw.size) 0
  | .congruence state => ((nextState state).toNat >>> 33 : Nat)

/-- The source after a number was taken. -/
def advance : DiceSource → DiceSource
  | .cycle raw position => .cycle raw (position + 1)
  | .congruence state => .congruence (nextState state)

/-- The face that a die with so many faces shows. -/
def face (source : DiceSource) (faces : Int) : Int := 1 + source.raw % faces

/-- Throws a die so many times; `thrown` holds the faces so far, the last one first. -/
def throwFrom (faces : Int) : Nat → List Int → DiceSource → List Int × DiceSource
  | 0, thrown, source => (thrown.reverse, source)
  | n + 1, thrown, source => throwFrom faces n (source.face faces :: thrown) source.advance

/-- The faces of so many dice, in the order in which they are thrown, and the source after it. -/
def throw (source : DiceSource) (count : Nat) (faces : Int) : List Int × DiceSource :=
  throwFrom faces count [] source

theorem face_pos {source : DiceSource} {faces : Int} (h : 0 < faces) : 1 ≤ source.face faces := by
  have := Int.emod_nonneg source.raw (show faces ≠ 0 by omega)
  simp only [face]
  omega

theorem face_le {source : DiceSource} {faces : Int} (h : 0 < faces) :
    source.face faces ≤ faces := by
  have := Int.emod_lt_of_pos source.raw h
  simp only [face]
  omega

end DiceSource

end Reckoner
