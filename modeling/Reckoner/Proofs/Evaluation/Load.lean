import Mathlib
import Reckoner.Proofs.Evaluation.Congruence
import Reckoner.Proofs.Expression.Depth

/-!
# Texts whose groups are replaced

A text grows while its groups are replaced: stars are written next to the values, and a value may
have many digits and a power of ten.  So the load of a text counts more than its weight.  Behind a
digit, a point, a factorial or a list it has one in reserve for the star that a group would get
there, unless what follows leaves no place for a group.  No replacement makes the load larger
(`Group.Becomes.load_le`), and at the beginning it is at most twice the length of the text.
-/

namespace Reckoner

namespace Text

/-- Whether nothing is kept in reserve in front of the character. -/
def closes (c : Char) : Bool := c == '*' || c == 'E' || Group.joinsRight c

/-- What is kept in reserve in front of what follows. -/
def reserve (next : Option Char) : Nat := if next.any closes then 0 else 1

/-- What is kept in reserve behind a character. -/
def reserveAfter (c : Char) (next : Option Char) : Nat :=
  if Group.joinsLeft c then reserve next else 0

/-- The load of a text in front of what follows. -/
def load (next : Option Char) : Text → Nat
  | [] => 0
  | c :: rest => characterWeight c + reserveAfter c (rest.head?.or next) + load next rest

variable {next next' : Option Char} {s t : Text}

@[simp] theorem load_nil : load next [] = 0 := rfl

@[simp] theorem load_cons (c : Char) (t : Text) :
    load next (c :: t) = characterWeight c + reserveAfter c (t.head?.or next) + load next t := rfl

theorem load_append (s t : Text) :
    load next (s ++ t) = load (t.head?.or next) s + load next t := by
  induction s with
  | nil => simp
  | cons c s ih =>
    rw [List.cons_append, load_cons, load_cons, ih, List.head?_append, Option.or_assoc]
    omega

theorem weight_le_load (t : Text) : t.weight ≤ load next t := by
  induction t with
  | nil => simp
  | cons c t ih =>
    rw [weight_cons, load_cons]
    omega

theorem reserve_le_one (next : Option Char) : reserve next ≤ 1 := by
  unfold reserve
  split <;> omega

/-- Nothing is kept in reserve behind the character. -/
theorem load_cons_of_not {c : Char} (h : Group.joinsLeft c = false) (t : Text) :
    load next (c :: t) = characterWeight c + load next t := by
  rw [load_cons, reserveAfter, h, if_neg (by decide), Nat.add_zero]

theorem characterWeight_of_joinsRight {c : Char} (h : Group.joinsRight c = true) :
    characterWeight c = 0 := by
  rw [characterWeight, if_pos]
  simp only [Group.joinsRight] at h
  simp [h]

/-- A character with a reserve behind it is a light one. -/
theorem characterWeight_le_one {c : Char} (h : Group.joinsLeft c = true) :
    characterWeight c ≤ 1 := by
  simp only [Group.joinsLeft, Bool.or_eq_true, beq_iff_eq] at h
  rcases h with ((hdigit | rfl) | rfl) | rfl
  · rw [characterWeight_of_joinsRight (by simp [Group.joinsRight, hdigit])]
    exact Nat.zero_le _
  all_goals decide

theorem characterWeight_le_two (c : Char) : characterWeight c ≤ 2 := by
  unfold characterWeight
  split
  · omega
  · split <;> omega

/-- The load of a text is at most twice its length. -/
theorem load_le (t : Text) : load next t ≤ 2 * t.length := by
  induction t with
  | nil => simp
  | cons c t ih =>
    have hc : characterWeight c + reserveAfter c (t.head?.or next) ≤ 2 := by
      unfold reserveAfter
      split
      · rename_i hjoins
        have hlight := characterWeight_le_one hjoins
        have hreserve := reserve_le_one (t.head?.or next)
        omega
      · exact characterWeight_le_two c
    rw [load_cons, List.length_cons]
    omega

/-- The last character alone has a reserve in front of what follows. -/
theorem load_eq (next : Option Char) (t : Text) :
    load next t =
      load (some '*') t + if t.getLast?.any Group.joinsLeft then reserve next else 0 := by
  rcases List.eq_nil_or_concat' t with rfl | ⟨start, c, rfl⟩
  · rfl
  · have hstar : reserve (some '*') = 0 := rfl
    simp only [load_append, load_cons, load_nil, List.head?_cons, List.head?_nil, Option.some_or,
      Option.none_or, reserveAfter, List.getLast?_concat, Option.any_some, hstar]
    split <;> omega

theorem reserve_congr (h : next.any closes = next'.any closes) : reserve next = reserve next' := by
  rw [reserve, reserve, h]

theorem load_congr (h : next.any closes = next'.any closes) (t : Text) :
    load next t = load next' t := by
  rw [load_eq, load_eq next', reserve_congr h]

/-- Commas and semicolons weigh the same. -/
theorem load_semicolons (next : Option Char) (depth : Int) (t : Text) :
    load next (ArgumentList.semicolons depth t) = load next t := by
  induction t generalizing depth with
  | nil => rfl
  | cons c t ih =>
    have hhead (depth : Int) :
        reserve ((ArgumentList.semicolons depth t).head?.or next) = reserve (t.head?.or next) := by
      refine reserve_congr ?_
      cases t with
      | nil => rfl
      | cons d t =>
        rw [ArgumentList.semicolons]
        split
        · rename_i hd
          simp only [Bool.and_eq_true, decide_eq_true_eq] at hd
          rw [hd.1]
          rfl
        · rfl
    rw [ArgumentList.semicolons]
    split
    · rename_i hc
      simp only [Bool.and_eq_true, decide_eq_true_eq] at hc
      rw [hc.1, load_cons_of_not rfl, load_cons_of_not rfl, ih]
      rfl
    · rw [load_cons, load_cons, ih, reserveAfter, reserveAfter, hhead]

/-! ## Literals -/

/-- Digits and points have the reserve behind the last one. -/
theorem load_le_reserve (next : Option Char) (h : ∀ c ∈ t, Group.joinsRight c = true) :
    load next t ≤ reserve next := by
  induction t with
  | nil => exact Nat.zero_le _
  | cons c t ih =>
    obtain ⟨hc, ht⟩ := List.forall_mem_cons.1 h
    rw [load_cons, characterWeight_of_joinsRight hc]
    cases t with
    | nil =>
      rw [load_nil, reserveAfter]
      split
      · simp
      · omega
    | cons d t =>
      have hd : reserve (some d) = 0 := by
        simp [reserve, closes, ht d List.mem_cons_self]
      have hreserve : reserveAfter c ((d :: t).head?.or next) = 0 := by
        simp [reserveAfter, hd]
      have := ih ht
      omega

/-- A power of ten weighs three at most, and has the reserve behind its last digit. -/
theorem load_exponent_le {e : WrittenExponent} (h : e.WellFormed)
    (hdigits : ∀ c ∈ e.digits, Group.joinsRight c = true) :
    load next e.text ≤ 3 + reserve next := by
  have hletter : characterWeight 'E' = 2 := by decide
  have hsign : load (e.digits.head?.or next) e.sign.toList ≤ 1 := by
    cases hs : e.sign with
    | none => exact Nat.zero_le _
    | some c =>
      have hc : characterWeight c ≤ 1 ∧ Group.joinsLeft c = false := by
        rcases h.sign c hs with rfl | rfl <;> decide
      rw [Option.toList_some, load_cons_of_not hc.2, load_nil]
      exact hc.1
  have hend := load_le_reserve next hdigits
  rw [WrittenExponent.text, List.cons_append, load_cons_of_not rfl, load_append, hletter]
  omega

theorem joinsRight_of_mem_ofFloat {x : Float} (hx : x.isFinite = true) {c : Char}
    (hc : c ∈ Literal.ofFloat x) (hmantissa : Numeral.isMantissa c = true) :
    Group.joinsRight c = true := by
  rcases Literal.isDigit_of_mem_ofFloat hx hc hmantissa with hdigit | rfl
  · simp [Group.joinsRight, hdigit]
  · rfl

/-- The literal of a number has a load of three at most, and the reserve behind its last digit. -/
theorem load_ofFloat_le (next : Option Char) {x : Float} (hx : x.isFinite = true) :
    load next (Literal.ofFloat x) ≤ 3 + reserve next := by
  obtain ⟨l, hl, htext, -⟩ := Literal.exists_ofFloat hx
  have hjoins {c : Char} (hc : c ∈ l.text) := joinsRight_of_mem_ofFloat hx (htext ▸ hc)
  rw [← htext]
  rw [Literal.text, Numeral.text_eq] at hjoins ⊢
  have hminus (next : Option Char) :
      load next (if l.negative then [Literal.minus] else []) = 0 := by
    split
    · rw [load_cons_of_not rfl]
      rfl
    · rfl
  have hmantissa (next : Option Char) : load next l.numeral.mantissa ≤ reserve next := by
    refine load_le_reserve next fun c hc => hjoins ?_ (Numeral.isMantissa_of_mem hl c hc)
    simp [hc]
  rw [load_append, hminus, load_append]
  cases he : l.numeral.exponent with
  | none =>
    have := hmantissa next
    simp only [Option.map_none, Option.getD_none, List.head?_nil, Option.none_or, load_nil]
    omega
  | some e =>
    have hexponent : load next e.text ≤ 3 + reserve next := by
      refine load_exponent_le (hl.exponent e he) fun c hc => hjoins ?_ ?_
      · simp [he, WrittenExponent.text, hc]
      · simp [Numeral.isMantissa, (hl.exponent e he).digits c hc]
    -- the power of ten leaves no place for a group behind the digits before it
    have hclosed : reserve (e.text.head?.or next) = 0 := rfl
    have := hmantissa (e.text.head?.or next)
    simp only [Option.map_some, Option.getD_some]
    omega

end Text

/-! ## Groups -/

namespace Group

open Text

/-- The star that is written behind a group was in reserve. -/
theorem reserve_add_load_starAfter (g : Group) :
    reserve (g.starAfter ++ g.after).head? + load g.after.head? g.starAfter ≤ 1 := by
  unfold starAfter
  split
  · rw [load_cons_of_not rfl]
    exact le_refl 1
  · exact reserve_le_one _

/-- The star that is written in front of a group was in reserve. -/
theorem load_append_starBefore (g : Group) (next : Option Char) :
    load next (g.before ++ g.starBefore) ≤ load (some '(') g.before := by
  have hopening : reserve (some '(') = 1 := rfl
  rw [load_eq (some '('), starBefore, hopening]
  by_cases hjoins : g.before.getLast?.any joinsLeft = true
  · rw [if_pos hjoins, if_pos hjoins, load_append, load_cons_of_not rfl]
    exact le_refl _
  · rw [if_neg hjoins, if_neg hjoins, List.append_nil, load_eq, if_neg hjoins]

theorem load_text (g : Group) :
    load none g.text =
      load (some '(') g.before + 2 + load (some ')') g.content + 2 + load none g.after := by
  have hweights : characterWeight '(' = 2 ∧ characterWeight ')' = 2 := by decide
  rw [text, List.append_assoc, load_append, List.cons_append, load_cons_of_not rfl,
    load_append, load_cons_of_not rfl, hweights.1, hweights.2]
  simp only [List.head?_cons, Option.some_or]
  omega

/-- The content of a group weighs no more than the load of the whole text. -/
theorem weight_content_le (g : Group) : g.content.weight ≤ load none g.text := by
  have hcontent : g.content.weight ≤ load (some ')') g.content := weight_le_load _
  rw [load_text]
  omega

/-- No replacement of a group makes the load of the text larger. -/
theorem Becomes.load_le {g : Group} {new : Text} (h : g.Becomes new) :
    load none (g.before ++ new ++ g.after) ≤ load none g.text := by
  have hstar := g.reserve_add_load_starAfter
  rw [load_text]
  rcases h with ⟨-, rfl⟩ | ⟨-, x, hx, rfl⟩
  · -- the brackets weigh as much as the parentheses, with the reserve behind the closing one
    have hopening : (some '[').any closes = (some '(').any closes := rfl
    have hclosing : (some ']').any closes = (some ')').any closes := rfl
    have hbefore := load_congr hopening g.before
    have hcontent := load_congr hclosing g.content
    have hweights : characterWeight '[' = 2 ∧ characterWeight ']' = 1 := by decide
    have hbracket : reserveAfter ']' (g.starAfter ++ g.after).head? =
        reserve (g.starAfter ++ g.after).head? := rfl
    have htext : g.before ++ ('[' :: ArgumentList.semicolons 0 g.content ++ ']' :: g.starAfter) ++
        g.after = g.before ++ '[' :: (ArgumentList.semicolons 0 g.content ++
          ']' :: (g.starAfter ++ g.after)) := by
      simp only [List.append_assoc, List.cons_append]
    rw [htext, load_append, load_cons_of_not rfl, load_append, load_semicolons, load_cons,
      load_append]
    simp only [List.head?_cons, Option.or_none, hbracket]
    omega
  · have hbefore := g.load_append_starBefore
      (Literal.ofFloat x ++ (g.starAfter ++ g.after)).head?
    have hliteral := load_ofFloat_le (g.starAfter ++ g.after).head? hx
    have htext : g.before ++ (g.starBefore ++ Literal.ofFloat x ++ g.starAfter) ++ g.after =
        (g.before ++ g.starBefore) ++ (Literal.ofFloat x ++ (g.starAfter ++ g.after)) := by
      simp only [List.append_assoc]
    rw [htext, load_append (g.before ++ g.starBefore), load_append (Literal.ofFloat x),
      load_append g.starAfter]
    simp only [Option.or_none]
    omega

end Group

end Reckoner
