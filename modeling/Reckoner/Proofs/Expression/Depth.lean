import Mathlib
import Reckoner.Proofs.Expression.Dice
import Reckoner.Proofs.Expression.Shape

/-!
# How deep a text is nested

Every character of a text is given a weight, the number of levels that it can add to the reading: a
digit adds none, an operator one, and the letters of a name pay for the levels that what follows the
name takes.  No text needs more levels than it weighs (`Term.IsDeep.le_weight`).
-/

namespace Reckoner

/-! ## Weights -/

namespace Text

/-- The weight of a character. -/
def characterWeight (c : Char) : Nat :=
  if c.isDigit || c == '.' || c == Literal.minus then 0
  else if ['+', '-', '*', '!', ']'].contains c then 1
  else 2

/-- The weight of a text. -/
def weight (t : Text) : Nat := (t.map characterWeight).sum

variable {s t : Text}

@[simp] theorem weight_nil : weight [] = 0 := rfl

@[simp] theorem weight_cons (c : Char) (t : Text) :
    weight (c :: t) = characterWeight c + weight t := by
  simp [weight]

@[simp] theorem weight_append (s t : Text) : weight (s ++ t) = weight s + weight t := by
  simp [weight]

theorem weight_le_of_sublist (h : s.Sublist t) : weight s ≤ weight t :=
  (h.map characterWeight).sum_le_sum fun _ _ => Nat.zero_le _

theorem toNat_lt_of_characterWeight_lt {c : Char} (h : characterWeight c < 2) : c.toNat < 128 := by
  unfold characterWeight at h
  split at h
  · rename_i hlight
    simp only [Bool.or_eq_true, beq_iff_eq] at hlight
    rcases hlight with (hdigit | rfl) | rfl
    · have hle : c.toNat ≤ 57 := (Char.isDigit_iff_toNat.1 hdigit).2
      omega
    · decide
    · decide
  · split at h
    · rename_i hsign
      have hall : ['+', '-', '*', '!', ']'].all (fun c => c.toNat < 128) = true := by decide
      exact of_decide_eq_true (List.all_eq_true.1 hall c (List.contains_iff_mem.1 hsign))
    · omega

/-- The letters of a name have the full weight, but for the zero. -/
theorem two_le_characterWeight {c a : Char} (hlower : LowersTo c a) (ha : a ∈ Symbol.alphabet)
    (hzero : a ≠ '0') : 2 ≤ characterWeight c := by
  have hall : (List.range 128).all (fun n => 2 ≤ characterWeight (Char.ofNat n) ||
      Symbol.alphabet.all fun a => a = '0' || !decide (LowersTo (Char.ofNat n) a)) = true := by
    decide +kernel
  by_contra hlt
  have hrange := List.mem_range.2 (toNat_lt_of_characterWeight_lt (not_le.1 hlt))
  have hc := List.all_eq_true.1 hall c.toNat hrange
  rw [Char.ofNat_toNat, decide_eq_false hlt, Bool.false_or] at hc
  have ha := List.all_eq_true.1 hc a ha
  simp [hzero, hlower] at ha

end Text

namespace Tier

theorem characterWeight_pos {tier : Tier} {c : Char} {op : Operator}
    (h : tier.operator? c = some op) : 0 < Text.characterWeight c := by
  have hall : letters.all (fun c => 0 < Text.characterWeight c) = true := by decide
  simpa using List.all_eq_true.1 hall c (mem_letters h)

end Tier

namespace Symbol

/-- The least weight of a text that spells the name. -/
def leastWeight : Symbol → Nat
  | constant _ => 2
  | function _ => 4

theorem two_mul_le_weight {cut letters : Text} (h : List.Forall₂ Text.LowersTo cut letters)
    (hletters : letters ⊆ alphabet) :
    2 * (letters.filter (· != '0')).length ≤ cut.weight := by
  induction h with
  | nil => simp
  | @cons c a cut letters hca h ih =>
    rw [List.cons_subset] at hletters
    have hrest := ih hletters.2
    rw [Text.weight_cons]
    by_cases hzero : a = '0'
    · rw [List.filter_cons_of_neg (by simp [hzero])]
      omega
    · have hc := Text.two_le_characterWeight hca hletters.1 hzero
      rw [List.filter_cons_of_pos (by simpa using hzero), List.length_cons]
      omega

theorem leastWeight_le {s : Symbol} {cut : Text} (h : List.Forall₂ Text.LowersTo cut s.letters) :
    s.leastWeight ≤ cut.weight := by
  have hall : all.all (fun s => s.leastWeight ≤ 2 * (s.letters.filter (· != '0')).length) =
      true := by
    decide
  have hs := of_decide_eq_true (List.all_eq_true.1 hall s s.mem_all)
  exact hs.trans (two_mul_le_weight h fun _ => mem_alphabet)

end Symbol

/-- The name that is read pays for the levels that what follows it takes. -/
theorem Naming.leastWeight_add_le {t : Text} {n : Naming} (h : read? t = some n) :
    n.symbol.leastWeight + n.rest.weight ≤ t.weight := by
  obtain ⟨name, htext, hletters, -⟩ := exists_of_read? h
  have hname := Symbol.leastWeight_le hletters
  rw [htext, Text.weight_append, Text.weight_append]
  omega

/-- An item of a list weighs no more than the list. -/
theorem ArgumentList.weight_le_of_mem {t item : Text} {args : List Text} (h : read? t = some args)
    (hitem : item ∈ args) : item.weight ≤ t.weight := by
  obtain ⟨first, rest, rfl, rfl⟩ := exists_of_read? h
  refine Text.weight_le_of_sublist (List.Sublist.cons _ ?_)
  rw [List.append_assoc]
  rcases List.mem_cons.1 hitem with rfl | hrest
  · exact List.sublist_append_left _ _
  · have hpiece : (';' :: item).Sublist (separated ';' rest) :=
      List.sublist_flatten_of_mem (List.mem_map_of_mem hrest)
    have hitem : item.Sublist (separated ';' rest) := (List.sublist_cons_self ';' item).trans hpiece
    exact (hitem.trans (List.sublist_append_left _ _)).trans (List.sublist_append_right _ _)

/-! ## Terms -/

namespace Term

mutual
/-- Whether the levels ran out somewhere in the term. -/
def IsDeep : Term → Prop
  | tooDeep => True
  | binary _ _ left right => IsDeep left ∨ IsDeep right
  | factorial operand => IsDeep operand
  | constant _ _ _ tail => IsDeep tail
  | call _ _ _ _ args => AnyDeep args
  | absent | emptyCall _ _ _ _ | literal _ | unreadable _ => False

/-- Whether the levels ran out somewhere in some terms. -/
def AnyDeep : List Term → Prop
  | [] => False
  | t :: rest => IsDeep t ∨ AnyDeep rest
end

theorem anyDeep_iff {args : List Term} : AnyDeep args ↔ ∃ t ∈ args, IsDeep t := by
  induction args with
  | nil => simp [AnyDeep]
  | cons t rest ih => simp [AnyDeep, ih]

/-- The levels do not run out in a text that weighs less. -/
theorem IsDeep.le_weight [Stack] {room charge : Nat} {t : Text}
    (h : (read room charge t).IsDeep) : room ≤ charge + t.weight := by
  induction room generalizing charge t with
  | zero => exact Nat.zero_le _
  | succ room ih =>
    cases charge with
    | succ charge =>
      rw [read_charge] at h
      have := ih h
      omega
    | zero =>
      obtain ⟨T, hT, hread⟩ := exists_shape t
      rw [hread] at h
      -- each construct leaves a part whose weight is smaller by the levels that it takes
      cases hT with
      | absent => exact h.elim
      | binary hsplit =>
        obtain ⟨tier, c, hop, rfl⟩ := Split.text_of_loosest? hsplit
        have hc := Tier.characterWeight_pos (Split.operator?_of_at? hop)
        rw [Text.weight_append, Text.weight_cons]
        rcases h with hleft | hright
        · have := ih hleft
          omega
        · have := ih hright
          omega
      | factorial hbang =>
        have htext := List.dropLast_append_getLast? '!' hbang
        have := ih h
        rw [← htext, Text.weight_append]
        have hc : Text.weight ['!'] = 1 := by decide
        omega
      | @constant l c rest hname =>
        have hweight : 2 + rest.weight ≤ t.weight := Naming.leastWeight_add_le hname
        have := ih h
        omega
      | @call l f rest hname =>
        have hweight : 4 + rest.weight ≤ t.weight := Naming.leastWeight_add_le hname
        have := ih (h.resolve_right id)
        omega
      | @list l f rest args hname hlist =>
        have hweight : 4 + rest.weight ≤ t.weight := Naming.leastWeight_add_le hname
        obtain ⟨arg, harg, hdeep⟩ := anyDeep_iff.1 h
        obtain ⟨item, hitem, rfl⟩ := List.mem_map.1 harg
        have := ih hdeep
        have hcharge := Stack.itemCharge_le
        have hle := ArgumentList.weight_le_of_mem hlist hitem
        omega
      | emptyCall => exact h.elim
      | literal => exact h.elim
      | unreadable => exact h.elim

end Term

end Reckoner
