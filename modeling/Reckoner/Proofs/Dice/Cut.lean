import Mathlib
import Reckoner.Proofs.Dice.Roll

/-!
# The end of a line

The line of a roll ends with a cut: the last character of the summary goes, whatever it is.  It is
to be the comma after the last value, which is there if a value was listed.  A watch in front of the
cut raises an alarm unless the cut takes what it is expected to take (`Dice.rollWatched`): the
comma, or the colon of the line when the limit has no room for any value.  The watched roll is the
roll itself, whatever the alarm does (`Dice.rollWatched_eq`).
-/

namespace Reckoner

/-! ## Cuts -/

/-- What is known when the last character of the summary goes. -/
structure Cut where
  /-- The summary before the line. -/
  before : String
  /-- How many faces the dice of the line have. -/
  faces : Int
  /-- The values that are listed in the line. -/
  listed : List Int
  /-- The summary with the line, whose last character goes. -/
  begun : String
  deriving DecidableEq

namespace Cut

variable (c : Cut)

/-- What the line begins with. -/
def head : String := "d" ++ toString c.faces ++ ":"

/-- The values as they are listed, with a comma after each. -/
def entries : String := String.join (c.listed.map fun value => " " ++ toString value ++ ",")

/-- Something is listed in the line, so that the cut takes the comma after the last value. -/
def TakesComma : Prop := c.listed ≠ [] ∧ c.begun = c.before ++ (c.head ++ c.entries)

/-- Nothing is listed in the line, so that the cut takes the colon. -/
def TakesColon : Prop := c.listed = [] ∧ c.begun = c.before ++ c.head

/-- A cut takes the comma, unless the limit allows no value in a line. -/
def IsExpected (limits : Limits) : Prop :=
  if 1 ≤ limits.listedChars then c.TakesComma else c.TakesColon

instance : Decidable c.TakesComma := inferInstanceAs (Decidable (_ ∧ _))

instance : Decidable c.TakesColon := inferInstanceAs (Decidable (_ ∧ _))

instance (limits : Limits) : Decidable (c.IsExpected limits) :=
  inferInstanceAs (Decidable (if 1 ≤ limits.listedChars then c.TakesComma else c.TakesColon))

variable {c}

/-- A cut that takes the comma leaves the beginning of the line and all its values. -/
theorem TakesComma.dropLastChar (h : c.TakesComma) :
    Report.dropLastChar c.begun =
      c.before ++ c.head ++ " " ++ ", ".intercalate (c.listed.map toString) := by
  rw [h.2, entries, Report.join_listing h.1]
  simp only [← String.append_assoc]
  rw [Report.dropLastChar_append_comma]

/-- A cut that takes the colon leaves the line without it. -/
theorem TakesColon.dropLastChar (h : c.TakesColon) :
    Report.dropLastChar c.begun = c.before ++ "d" ++ toString c.faces := by
  have hcolon : ∀ s : String, Report.dropLastChar (s ++ ":") = s := by
    intro s
    simp [Report.dropLastChar]
  rw [h.2, head, ← String.append_assoc, ← String.append_assoc, hcolon]

end Cut

/-- A line begins with its dice and a colon. -/
theorem Dice.Roll.exists_line_eq (limits : Limits) (roll : Dice.Roll) :
    ∃ rest, roll.line limits = "d" ++ toString roll.faces ++ ":" ++ rest := by
  refine ⟨" " ++ ", ".intercalate ((roll.shown limits).map toString) ++
    (if roll.more limits then "..." else "") ++ "\n", ?_⟩
  have hcolon : ": " = ":" ++ " " := rfl
  rw [Dice.Roll.line, hcolon]
  simp only [String.append_assoc]

/-! ## Watched rolls -/

/-- Runs with the same result go on in the same way. -/
theorem Evaluation.runOn_bind_congr {α β : Type} {m m' : Evaluation α} {limits : Limits}
    {s : Session} (h : m.runOn limits s = m'.runOn limits s) (f : α → Evaluation β) :
    (m >>= f).runOn limits s = (m' >>= f).runOn limits s := by
  rw [runOn_bind, runOn_bind, h]

namespace Dice

open Evaluation

/-- The report when the values of a line are listed and the line is not yet ended. -/
def beginLine (limits : Limits) (faces : Int) (shown : List Int) (r : Report) : Report :=
  shown.foldl (Report.listRoll limits) (r.beginListing limits faces)

section

variable (alarm : Cut → Evaluation Unit)

/-- Lists rolls, and raises the alarm before the line is ended if the cut is not as expected. -/
def listWatched (faces : Int) (shown : List Int) (more : Bool) : Evaluation Unit := do
  let limits ← read
  let before := (← get).report.rolls
  modifyReport (beginLine limits faces shown)
  let begun := (← get).report
  let cut : Cut := ⟨before, faces, shown, begun.rolls⟩
  if begun.unlisted limits = false ∧ ¬ cut.IsExpected limits then alarm cut
  modifyReport (·.endListing limits more)

/-- Rolls at least one die, with a watch at the end of the line. -/
def rollSomeWatched (loud negative : Bool) (count : Nat) (faces : Int) (source : Text) :
    Evaluation Float := do
  let limits ← read
  let thrown ← throwDice count faces
  let values := if negative then thrown.map (- ·) else thrown
  let shown := listed limits.listedChars values
  let more := shown.length < count
  if loud then listWatched alarm faces shown more
  trace (.rolled shown more negative count faces) source
  match Number.ofInt? (values.foldl (· + ·) 0) with
  | some total => return total
  | none => throw .sumTooLarge

/-- Rolls dice and adds them up, with a watch at the end of the line. -/
def rollWatched (loud : Bool) (count faces : Float) : Evaluation Float := do
  if !(count.isFinite && faces.isFinite) then fail (.infiniteDice count faces)
  else
    let limits ← read
    let dice := Number.round count
    if limits.dice < dice.natAbs then refuse dice.natAbs limits.dice
    else if dice = 0 then
      trace .noDice (sourceText count faces)
      return 0
    else if Number.round faces < 1 then fail .facelessDie
    else
      rollSomeWatched alarm loud (dice < 0) dice.natAbs (Number.round faces)
        (sourceText count faces)

end

/-! ## The alarm is never raised -/

variable {limits : Limits}

/-- What is listed of some values ends in a comma, unless the limit allows no value. -/
theorem isExpected_listed {values : List Int} (hvalues : values ≠ []) (r : Report) (faces : Int)
    (hlisted : (beginLine limits faces (listed limits.listedChars values) r).unlisted limits =
      false) :
    (Cut.mk r.rolls faces (listed limits.listedChars values)
      (beginLine limits faces (listed limits.listedChars values) r).rolls).IsExpected limits := by
  unfold beginLine at hlisted ⊢
  have hline : (r.listings : Int) + 1 ≤ limits.listedDice := by
    simpa [Report.unlisted, Report.listings_foldl_listRoll, Report.listings_beginListing]
      using hlisted
  have hbegun : ((r.beginListing limits faces).listings : Int) ≤ limits.listedDice := by
    rw [Report.listings_beginListing]
    exact_mod_cast hline
  rw [Report.rolls_foldl_listRoll hbegun, Report.rolls_beginListing hline, String.append_assoc]
  unfold Cut.IsExpected
  split
  · rename_i hchars
    exact ⟨listed_ne_nil hchars hvalues, rfl⟩
  · rename_i hchars
    have hnil : listed limits.listedChars values = [] := by
      obtain ⟨value, rest, rfl⟩ := List.exists_cons_of_ne_nil hvalues
      rw [listed_cons, if_neg (by omega)]
    rw [hnil]
    exact ⟨rfl, by simp [Cut.head]⟩

variable (alarm : Cut → Evaluation Unit)

theorem runOn_listWatched {values : List Int} (hvalues : values ≠ []) (faces : Int) (more : Bool)
    (s : Session) :
    (listWatched alarm faces (listed limits.listedChars values) more).runOn limits s =
      (modifyReport (listRolls limits faces (listed limits.listedChars values) more)).runOn limits
        s := by
  have hget : ∀ s, (get : Evaluation Session).runOn limits s = .ok s s := fun _ => rfl
  have hmodify : ∀ change s, (modifyReport change).runOn limits s =
      .ok () { s with report := change s.report } := fun _ _ => rfl
  unfold listWatched
  rw [runOn_bind_of_ok (runOn_read limits s), runOn_bind_of_ok (hget s),
    runOn_bind_of_ok (hmodify _ s), runOn_bind_of_ok (hget _)]
  simp only
  rw [if_neg fun h => h.2 (isExpected_listed hvalues s.report faces h.1)]
  rfl

theorem rollSomeWatched_eq (loud negative : Bool) {count : Nat} (hcount : 0 < count) (faces : Int)
    (source : Text) :
    rollSomeWatched alarm loud negative count faces source =
      rollSome loud negative count faces source := by
  funext limits s
  show (rollSomeWatched alarm loud negative count faces source).runOn limits s =
    (rollSome loud negative count faces source).runOn limits s
  unfold rollSomeWatched rollSome
  rw [runOn_bind_of_ok (runOn_read limits s), runOn_bind_of_ok (runOn_read limits s),
    runOn_bind_of_ok (runOn_throwDice limits s _ _),
    runOn_bind_of_ok (runOn_throwDice limits s _ _)]
  cases loud with
  | false => rfl
  | true =>
    have hvalues : (if negative then (s.dice.throw count faces).1.map (- ·)
        else (s.dice.throw count faces).1) ≠ [] := by
      rw [← List.length_pos_iff]
      split
      · rw [List.length_map, DiceSource.length_throw]
        exact hcount
      · rw [DiceSource.length_throw]
        exact hcount
    exact runOn_bind_congr (runOn_listWatched alarm hvalues _ _ _) _

/-- The alarm is never raised: the watched roll is the roll. -/
theorem rollWatched_eq : rollWatched alarm = roll := by
  funext loud count faces limits s
  show (rollWatched alarm loud count faces).runOn limits s = (roll loud count faces).runOn limits s
  unfold rollWatched roll
  cases hfinite : count.isFinite && faces.isFinite with
  | false => rfl
  | true =>
    rw [if_neg (by decide), if_neg (by decide), runOn_bind_of_ok (runOn_read limits s),
      runOn_bind_of_ok (runOn_read limits s)]
    simp only
    split_ifs with hcap hzero hface
    · rfl
    · rfl
    · rfl
    · rw [rollSomeWatched_eq alarm loud _ (Int.natAbs_pos.2 hzero)]

end Dice

end Reckoner
