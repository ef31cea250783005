import Mathlib
import Reckoner.Proofs.Expression.Term

/-!
# The dice operators of a text

A text is read into terms of its own parts, so a term has no dice operator that its text does not
have (`Term.diceIn_read`).
-/

namespace Reckoner

/-! ## Texts -/

namespace Text

variable {dice : Bool → Prop} {s t : Text}

/-- The dice operators that are written in a text are among the given ones. -/
def DiceIn (dice : Bool → Prop) (t : Text) : Prop :=
  ∀ c ∈ t, ∀ (tier : Tier) (loud : Bool), tier.operator? c = some (.dice loud) → dice loud

theorem DiceIn.mono (h : DiceIn dice t) (hs : s ⊆ t) : DiceIn dice s :=
  fun c hc => h c (hs hc)

theorem diceIn_append : DiceIn dice (s ++ t) ↔ DiceIn dice s ∧ DiceIn dice t := by
  constructor
  · intro h
    exact ⟨h.mono (List.subset_append_left _ _), h.mono (List.subset_append_right _ _)⟩
  · rintro ⟨hs, ht⟩ c hc
    exact (List.mem_append.1 hc).elim (hs c) (ht c)

theorem diceIn_reverse : DiceIn dice t.reverse ↔ DiceIn dice t :=
  ⟨fun h => h.mono (List.subset_reverse.2 (List.Subset.refl t)), fun h =>
    h.mono (List.reverse_subset.2 (List.Subset.refl t))⟩

theorem diceIn_cons {c : Char} :
    DiceIn dice (c :: t) ↔
      (∀ (tier : Tier) (loud : Bool), tier.operator? c = some (.dice loud) → dice loud) ∧
        DiceIn dice t := by
  simp [DiceIn]

/-- A dice operator is a `d` or a `D`. -/
theorem eq_of_operator?_dice {c : Char} {tier : Tier} {loud : Bool}
    (h : tier.operator? c = some (.dice loud)) : c = 'd' ∨ c = 'D' := by
  unfold Tier.operator? at h
  split at h <;> simp_all

theorem diceIn_of_not_mem (hquiet : 'd' ∉ t) (hloud : 'D' ∉ t) : DiceIn dice t := by
  intro c hc tier loud hop
  rcases eq_of_operator?_dice hop with rfl | rfl
  · exact absurd hc hquiet
  · exact absurd hc hloud

/-- A literal has no dice operator. -/
theorem diceIn_literal {l : Literal} (h : l.WellFormed) : DiceIn dice l.text := by
  refine diceIn_of_not_mem ?_ ?_ <;>
  · intro hc
    exact absurd (Literal.isLetter_of_mem h _ hc) (by decide)

end Text

/-! ## Parts of a text -/

namespace Split

theorem operator?_of_at? {tier : Tier} {before : Text} {c : Char} {op : Operator}
    (h : Operator.at? tier before c = some op) : tier.operator? c = some op := by
  unfold Operator.at? at h
  split at h
  · cases h
  · exact h

theorem text_of_goLeft {tier : Tier} {depth : Int} {after t : Text} {s : Split}
    (h : goLeft tier depth after t = some s) :
    ∃ c, Operator.at? tier s.before.reverse c = some s.operator ∧
      t.reverse ++ after = s.before ++ c :: s.after := by
  induction t generalizing depth after with
  | nil => exact absurd h (by simp [goLeft])
  | cons c before ih =>
    have hstep : (c :: before).reverse ++ after = before.reverse ++ c :: after := by simp
    rw [hstep]
    rw [goLeft] at h
    split at h
    · exact ih h
    · split at h
      · exact ih h
      · split at h
        · rename_i op hop
          cases h
          split at hop
          · exact ⟨c, by rwa [List.reverse_reverse], rfl⟩
          · cases hop
        · exact ih h

/-- A text is split at a character of its own that is an operator where it stands. -/
theorem text_of_loosest? {t : Text} {s : Split} (h : loosest? t = some s) :
    ∃ (tier : Tier) (c : Char),
      Operator.at? tier s.before.reverse c = some s.operator ∧ t = s.before ++ c :: s.after := by
  obtain ⟨tier, -, htier⟩ := List.exists_of_findSome?_eq_some h
  obtain ⟨c, hc, htext⟩ := text_of_goLeft htier
  exact ⟨tier, c, hc, by simpa using htext⟩

end Split

theorem Naming.rest_subset {t : Text} {n : Naming} (h : Naming.read? t = some n) : n.rest ⊆ t := by
  obtain ⟨name, htext, -⟩ := Naming.exists_of_read? h
  conv_rhs => rw [htext]
  rw [← List.append_assoc]
  exact List.subset_append_right _ _

namespace ArgumentList

theorem item_subset {depth : Int} {acc t item : Text} (h : item ∈ items depth acc t) :
    item ⊆ acc ++ t := by
  induction t generalizing depth acc with
  | nil =>
    rw [items, List.mem_singleton] at h
    simp [h]
  | cons c t ih =>
    rw [items] at h
    split at h
    · rcases List.mem_cons.1 h with rfl | h
      · intro d hd
        exact List.mem_append_left _ (List.mem_reverse.1 hd)
      · intro d hd
        have := ih h hd
        simp_all
    · intro d hd
      have := ih h hd
      simp only [List.cons_append, List.mem_cons, List.mem_append] at this ⊢
      tauto

/-- The items of a list are parts of it. -/
theorem item_subset_of_read? {t item : Text} {args : List Text} (h : read? t = some args)
    (hitem : item ∈ args) : item ⊆ t := by
  unfold read? at h
  split at h
  · split at h
    · cases h
      refine List.Subset.trans (item_subset hitem) ?_
      rw [List.nil_append]
      exact List.Subset.trans (List.dropLast_subset _) (List.subset_cons_self _ _)
    · cases h
  · cases h

end ArgumentList

/-! ## Terms -/

namespace Term

mutual
/-- The dice operators of a term are among the given ones. -/
def DiceIn (dice : Bool → Prop) : Term → Prop
  | binary op _ left right =>
    (∀ loud, op = .dice loud → dice loud) ∧ DiceIn dice left ∧ DiceIn dice right
  | factorial operand => DiceIn dice operand
  | constant _ _ _ tail => DiceIn dice tail
  | call _ _ _ _ args => AllDiceIn dice args
  | absent | tooDeep | emptyCall _ _ _ _ | literal _ | unreadable _ => True

/-- The dice operators of some terms are among the given ones. -/
def AllDiceIn (dice : Bool → Prop) : List Term → Prop
  | [] => True
  | t :: rest => DiceIn dice t ∧ AllDiceIn dice rest
end

theorem allDiceIn_iff {dice : Bool → Prop} {args : List Term} :
    AllDiceIn dice args ↔ ∀ t ∈ args, DiceIn dice t := by
  induction args with
  | nil => simp [AllDiceIn]
  | cons t rest ih => simp [AllDiceIn, ih]

mutual
/-- A term may have any dice operators if all are allowed. -/
theorem diceIn_of_forall {dice : Bool → Prop} (h : ∀ loud, dice loud) :
    (t : Term) → DiceIn dice t
  | .binary _ _ left right =>
    ⟨fun loud _ => h loud, diceIn_of_forall h left, diceIn_of_forall h right⟩
  | .factorial operand => diceIn_of_forall h operand
  | .constant _ _ _ tail => diceIn_of_forall h tail
  | .call _ _ _ _ args => allDiceIn_of_forall h args
  | .absent | .tooDeep | .emptyCall _ _ _ _ | .literal _ | .unreadable _ => trivial

theorem allDiceIn_of_forall {dice : Bool → Prop} (h : ∀ loud, dice loud) :
    (args : List Term) → AllDiceIn dice args
  | [] => trivial
  | t :: rest => ⟨diceIn_of_forall h t, allDiceIn_of_forall h rest⟩
end

/-- A term has no dice operator that its text does not have. -/
theorem diceIn_read [Stack] {dice : Bool → Prop} (room charge : Nat) {t : Text}
    (h : Text.DiceIn dice t) : DiceIn dice (read room charge t) := by
  induction room generalizing charge t with
  | zero => simp [read, DiceIn]
  | succ room ih =>
    cases charge with
    | succ charge => exact read_charge charge t ▸ ih charge h
    | zero =>
      by_cases hnil : t = []
      · simp [hnil, read_nil, DiceIn]
      · rw [read.eq_4 _ _ hnil]
        split
        · rename_i s hsplit
          obtain ⟨tier, c, hop, rfl⟩ := Split.text_of_loosest? hsplit
          obtain ⟨hbefore, hrest⟩ := Text.diceIn_append.1 h
          obtain ⟨hc, hafter⟩ := Text.diceIn_cons.1 hrest
          refine ⟨fun loud hloud => hc tier loud ?_, ih 0 hbefore, ih 0 hafter⟩
          rw [Split.operator?_of_at? hop, hloud]
        · split
          · exact ih 0 (h.mono (List.dropLast_subset _))
          · split
            · rename_i hname
              exact ih 1 (h.mono (Naming.rest_subset hname))
            · rename_i hname
              have hrest := h.mono (Naming.rest_subset hname)
              split
              · trivial
              · exact ⟨ih 2 hrest, trivial⟩
              · rename_i items hlist
                split
                · trivial
                · refine allDiceIn_iff.2 ?_
                  intro arg harg
                  obtain ⟨item, hitem, rfl⟩ := List.mem_map.1 harg
                  exact ih _ (hrest.mono (ArgumentList.item_subset_of_read? hlist hitem))
            · split <;> trivial

end Term

end Reckoner
