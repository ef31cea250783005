import Reckoner.Evaluation.Basic
import Reckoner.Text.Integer

/-!
# Rolling dice

`2d6` rolls two dice with six faces and adds the faces up.  The operands are rounded to whole
numbers; a negative count rolls as many dice and negates every one.  The trace, and the summary of
a loud roll, list the first rolls until their texts reach a limit.
-/

namespace Reckoner.Dice

/-- The number of characters that a roll takes in a list. -/
def listedLength (value : Int) : Nat := (Text.ofInt value).length + 2

/-- How many of the rolls are listed: every roll that begins before the limit, `used` characters
being taken by the `count` rolls before. -/
def listedCount (limit : Int) (used count : Nat) : List Int → Nat
  | [] => count
  | value :: rest =>
    if used < limit then listedCount limit (used + listedLength value) (count + 1) rest else count

/-- The rolls that are listed. -/
def listed (limit : Int) (values : List Int) : List Int :=
  values.take (listedCount limit 0 0 values)

/-- The line of a loud roll in the summary. -/
def listRolls (limits : Limits) (faces : Int) (shown : List Int) (more : Bool) (r : Report) :
    Report :=
  (shown.foldl (Report.listRoll limits) (r.beginListing limits faces)).endListing limits more

/-- The text of a dice operator with its operands. -/
def sourceText (count faces : Float) : Text :=
  Number.plainText count ++ 'd' :: Number.plainText faces

/-- Rolls at least one die; `negative` negates every roll. -/
def rollSome (loud negative : Bool) (count : Nat) (faces : Int) (source : Text) :
    Evaluation Float := do
  let limits ← read
  let thrown ← Evaluation.throwDice count faces
  let values := if negative then thrown.map (- ·) else thrown
  let shown := listed limits.listedChars values
  let more := shown.length < count
  if loud then Evaluation.modifyReport (listRolls limits faces shown more)
  Evaluation.trace (.rolled shown more negative count faces) source
  match Number.ofInt? (values.foldl (· + ·) 0) with
  | some total => return total
  | none => throw .sumTooLarge

/-- Refuses to roll more dice than are allowed, in words that name how many are allowed. -/
def refuse (count : Nat) (allowed : Int) : Evaluation Float := do
  if Text.isWritable allowed then Evaluation.fail (.tooManyDice count allowed)
  else throw .tooManyDigits

/-- Rolls dice and adds them up.  A roll takes no level of its own: it has the room that the level
needs besides (`Stack.levels`). -/
def roll (loud : Bool) (count faces : Float) : Evaluation Float := do
  if !(count.isFinite && faces.isFinite) then Evaluation.fail (.infiniteDice count faces)
  else
    let limits ← read
    let dice := Number.round count
    if limits.dice < dice.natAbs then refuse dice.natAbs limits.dice
    else if dice = 0 then
      Evaluation.trace .noDice (sourceText count faces)
      return 0
    else if Number.round faces < 1 then Evaluation.fail .facelessDie
    else rollSome loud (dice < 0) dice.natAbs (Number.round faces) (sourceText count faces)

end Reckoner.Dice
