import Mathlib
import Reckoner.Proofs.Dice.Summary

/-!
# The lines of the rolls

What a roll lists is the shortest beginning of its values that reaches the limit, or all of them
(`Dice.isListing_listed`).  The summary has one line for each of the first loud rolls, and three
dots for all the others together (`Dice.summary`): listing one more roll leaves exactly the summary
of all of them (`Dice.listRolls_summary`).
-/

namespace Reckoner

namespace Dice

/-! ## The values that are listed -/

/-- Characters that are taken before count as a lower limit. -/
theorem listedCount_add (limit : Int) (before used count n : Nat) (values : List Int) :
    listedCount limit (used + before) (count + n) values =
      listedCount (limit - before) used count values + n := by
  induction values generalizing used count with
  | nil => rfl
  | cons value rest ih =>
    have hroom : ((used + before : Nat) : Int) < limit ↔ (used : Int) < limit - before := by omega
    simp only [listedCount, hroom]
    split
    · rw [Nat.add_right_comm used, Nat.add_right_comm count, ih]
    · rfl

/-- A roll is listed if the limit is not reached before it. -/
theorem listed_cons (limit value : Int) (rest : List Int) :
    listed limit (value :: rest) =
      if 0 < limit then value :: listed (limit - listedLength value) rest else [] := by
  have hrest := listedCount_add limit (listedLength value) 0 0 1 rest
  simp only [listed, listedCount, Nat.cast_zero]
  split
  · rw [hrest, List.take_succ_cons]
  · rfl

/-- Something is listed of every roll if the limit allows it. -/
theorem listed_ne_nil {limit : Int} (hlimit : 0 < limit) {values : List Int} (h : values ≠ []) :
    listed limit values ≠ [] := by
  obtain ⟨value, rest, rfl⟩ := List.exists_cons_of_ne_nil h
  rw [listed_cons, if_pos hlimit]
  exact List.cons_ne_nil _ _

/-! ## Rolls -/

/-- The dice of one dice operator. -/
structure Roll where
  /-- Whether the roll has a line in the summary. -/
  loud : Bool
  /-- Whether every die is negated. -/
  negative : Bool
  /-- How many faces each of the dice has. -/
  faces : Int
  /-- The faces that they showed, in the order in which they were thrown. -/
  thrown : List Int
  /-- The text of the operator with its operands. -/
  source : Text
  /-- How many steps were recorded before. -/
  recorded : Nat
  deriving DecidableEq, Repr

namespace Roll

variable (limits : Limits) (roll : Roll)

/-- The dice that are thrown. -/
def throw : Throw := ⟨roll.faces, roll.thrown⟩

/-- The values of the dice, with their sign. -/
def values : List Int := if roll.negative then roll.thrown.map (- ·) else roll.thrown

/-- The values that are listed. -/
def shown : List Int := listed limits.listedChars roll.values

/-- Whether there are more values than those that are listed. -/
def more : Bool := (roll.shown limits).length < roll.thrown.length

/-- The line of the roll in the summary. -/
def line : String :=
  "d" ++ toString roll.faces ++ ": " ++ ", ".intercalate ((roll.shown limits).map toString) ++
    (if roll.more limits then "..." else "") ++ "\n"

/-- The step of the roll in the trace. -/
def step : Step :=
  ⟨.rolled (roll.shown limits) (roll.more limits) roll.negative roll.thrown.length roll.faces,
    roll.source⟩

theorem length_values : roll.values.length = roll.thrown.length := by
  unfold values
  split <;> simp

end Roll

/-- The summary of loud rolls. -/
def summary (limits : Limits) (rolls : List Roll) : String :=
  String.join ((rolls.take limits.listedDice.toNat).map (Roll.line limits)) ++
    if limits.listedDice < rolls.length then "..." else ""

end Dice

/-! ## Listing -/

namespace Report

variable {limits : Limits} {r : Report}

theorem dropLastChar_append_comma (s : String) : dropLastChar (s ++ ",") = s := by
  simp [dropLastChar]

/-- The values of a line, one after the other, end in a comma. -/
theorem join_listing {values : List Int} (h : values ≠ []) :
    String.join (values.map fun value => " " ++ toString value ++ ",") =
      " " ++ ", ".intercalate (values.map toString) ++ "," := by
  induction values with
  | nil => exact absurd rfl h
  | cons value rest ih =>
    cases rest with
    | nil => simp [String.join_cons, String.append_assoc]
    | cons value' rest =>
      have hcomma : ", " = "," ++ " " := rfl
      have hfirst : ", ".intercalate ((value :: value' :: rest).map toString) =
          toString value ++ ", " ++ ", ".intercalate ((value' :: rest).map toString) :=
        String.intercalate_cons_cons
      rw [List.map_cons, String.join_cons, ih (List.cons_ne_nil _ _), hfirst]
      simp only [hcomma, String.append_assoc]

/-! ### A line within the limit -/

theorem listings_beginListing (limits : Limits) (r : Report) (faces : Int) :
    (r.beginListing limits faces).listings = r.listings + 1 := by
  simp only [beginListing]
  split <;> rfl

theorem rolls_beginListing (h : (r.listings : Int) + 1 ≤ limits.listedDice) (faces : Int) :
    (r.beginListing limits faces).rolls = r.rolls ++ ("d" ++ toString faces ++ ":") := by
  rw [beginListing, if_neg (by push_cast; omega)]
  rfl

theorem listings_listRoll (limits : Limits) (r : Report) (value : Int) :
    (r.listRoll limits value).listings = r.listings := by
  unfold listRoll
  split <;> rfl

theorem rolls_listRoll (h : (r.listings : Int) ≤ limits.listedDice) (value : Int) :
    (r.listRoll limits value).rolls = r.rolls ++ (" " ++ toString value ++ ",") := by
  rw [listRoll, if_neg (by simpa [unlisted] using h)]
  rfl

theorem listings_foldl_listRoll (limits : Limits) (r : Report) (shown : List Int) :
    (shown.foldl (listRoll limits) r).listings = r.listings := by
  induction shown generalizing r with
  | nil => rfl
  | cons value shown ih => rw [List.foldl_cons, ih, listings_listRoll]

theorem rolls_foldl_listRoll (h : (r.listings : Int) ≤ limits.listedDice) (shown : List Int) :
    (shown.foldl (listRoll limits) r).rolls =
      r.rolls ++ String.join (shown.map fun value => " " ++ toString value ++ ",") := by
  induction shown generalizing r with
  | nil => exact String.append_empty.symm
  | cons value shown ih =>
    have hlisted : ((r.listRoll limits value).listings : Int) ≤ limits.listedDice := by
      rwa [listings_listRoll]
    rw [List.foldl_cons, ih hlisted, rolls_listRoll h, List.map_cons, String.join_cons,
      String.append_assoc]

/-! ### Beyond the limit -/

/-- The first line beyond the limit is three dots, the others are nothing. -/
theorem rolls_beginListing_of_lt (h : limits.listedDice < (r.listings : Int) + 1) (faces : Int) :
    (r.beginListing limits faces).rolls =
      if (r.listings : Int) = limits.listedDice then r.rolls ++ "..." else r.rolls := by
  simp only [beginListing, Nat.cast_add, Nat.cast_one, if_pos h, add_left_inj]

theorem foldl_listRoll_of_unlisted (h : r.unlisted limits = true) (shown : List Int) :
    shown.foldl (listRoll limits) r = r := by
  induction shown with
  | nil => rfl
  | cons value shown ih => rw [List.foldl_cons, listRoll, if_pos h, ih]

end Report

namespace Dice

open Report

variable {limits : Limits} {r : Report}

theorem listings_listRolls (limits : Limits) (faces : Int) (shown : List Int) (more : Bool)
    (r : Report) : (listRolls limits faces shown more r).listings = r.listings + 1 := by
  rw [listRolls, endListing]
  split <;> simp only [listings_foldl_listRoll, listings_beginListing]

/-- A roll within the limit gets its line. -/
theorem rolls_listRolls (roll : Roll) (h : (r.listings : Int) + 1 ≤ limits.listedDice)
    (hshown : roll.shown limits ≠ []) :
    (listRolls limits roll.faces (roll.shown limits) (roll.more limits) r).rolls =
      r.rolls ++ roll.line limits := by
  have hbegun : ((r.beginListing limits roll.faces).listings : Int) ≤ limits.listedDice := by
    rw [listings_beginListing]
    exact_mod_cast h
  have hlisted : ¬ ((roll.shown limits).foldl (listRoll limits)
      (r.beginListing limits roll.faces)).unlisted limits = true := by
    simpa [unlisted, listings_foldl_listRoll] using hbegun
  have hcolon : ": " = ":" ++ " " := rfl
  rw [listRolls, endListing, if_neg hlisted, rolls_foldl_listRoll hbegun, rolls_beginListing h,
    join_listing hshown, ← String.append_assoc, dropLastChar_append_comma, Roll.line, hcolon]
  simp only [String.append_assoc]

/-- A roll beyond the limit adds three dots, unless they are there. -/
theorem rolls_listRolls_of_lt (h : limits.listedDice < (r.listings : Int) + 1) (faces : Int)
    (shown : List Int) (more : Bool) :
    (listRolls limits faces shown more r).rolls =
      if (r.listings : Int) = limits.listedDice then r.rolls ++ "..." else r.rolls := by
  have hunlisted : (r.beginListing limits faces).unlisted limits = true := by
    simpa [unlisted, listings_beginListing] using h
  rw [listRolls, foldl_listRoll_of_unlisted hunlisted, endListing, if_pos hunlisted,
    rolls_beginListing_of_lt h]

/-! ## The summary -/

/-- One more loud roll adds its line to the summary, or three dots, or nothing. -/
theorem summary_append (hlimit : 0 ≤ limits.listedDice) (rolls : List Roll) (roll : Roll) :
    summary limits (rolls ++ [roll]) =
      if (rolls.length : Int) + 1 ≤ limits.listedDice then
        summary limits rolls ++ roll.line limits
      else if (rolls.length : Int) = limits.listedDice then summary limits rolls ++ "..."
      else summary limits rolls := by
  have hlength : ((rolls ++ [roll]).length : Int) = rolls.length + 1 := by simp
  by_cases hline : (rolls.length : Int) + 1 ≤ limits.listedDice
  · have hall : (rolls ++ [roll]).length ≤ limits.listedDice.toNat := by omega
    rw [if_pos hline, summary, summary, hlength, List.take_of_length_le hall,
      List.take_of_length_le (by omega), if_neg (by omega), if_neg (by omega)]
    simp [String.join_append, String.join_cons]
  · -- the lines are all there; the three dots come with the first roll that has none
    have hfirst : (rolls ++ [roll]).take limits.listedDice.toNat =
        rolls.take limits.listedDice.toNat := List.take_append_of_le_length (by omega)
    rw [if_neg hline, summary, summary, hlength, hfirst, if_pos (by omega)]
    by_cases hdots : (rolls.length : Int) = limits.listedDice
    · rw [if_pos hdots, if_neg (by omega), String.append_empty]
    · rw [if_neg hdots, if_pos (by omega)]

/-- The summary of rolls becomes the summary of one more. -/
theorem listRolls_summary (roll : Roll) {past : List Roll} (hlimit : 0 ≤ limits.listedDice)
    (hshown : roll.shown limits ≠ []) (hrolls : r.rolls = summary limits past)
    (hlistings : r.listings = past.length) :
    (listRolls limits roll.faces (roll.shown limits) (roll.more limits) r).rolls =
      summary limits (past ++ [roll]) := by
  rw [summary_append hlimit, ← hrolls, ← hlistings]
  split
  · rename_i hline
    exact rolls_listRolls roll hline hshown
  · rename_i hline
    exact rolls_listRolls_of_lt (not_le.1 hline) _ _ _

end Dice

end Reckoner
