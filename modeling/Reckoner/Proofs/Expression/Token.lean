import Mathlib
import Reckoner.Proofs.Expression.Shape
import Reckoner.Proofs.Symbol.Alignment

/-!
# Tokens

No part of a text is passed over when it is read.  A text without parentheses in which nothing is
unreadable is made of tokens, one after the other (`Term.isMadeOf_of_isReadable`): operators,
factorials, literals and names, and the signs of argument lists where it has brackets.
-/

namespace Reckoner

/-! ## Texts made of parts -/

namespace Text

/-- Whether a text consists of such parts, one after the other. -/
def IsMadeOf (part : Text → Prop) (t : Text) : Prop :=
  ∃ parts : List Text, (∀ u ∈ parts, part u) ∧ parts.flatten = t

variable {part part' : Text → Prop} {s t : Text}

theorem isMadeOf_nil : IsMadeOf part [] := ⟨[], by simp, rfl⟩

theorem isMadeOf_self (h : part t) : IsMadeOf part t := ⟨[t], by simpa using h, by simp⟩

theorem IsMadeOf.append (hs : IsMadeOf part s) (ht : IsMadeOf part t) :
    IsMadeOf part (s ++ t) := by
  obtain ⟨parts, hparts, rfl⟩ := hs
  obtain ⟨parts', hparts', rfl⟩ := ht
  exact ⟨parts ++ parts', List.forall_mem_append.2 ⟨hparts, hparts'⟩, List.flatten_append⟩

theorem IsMadeOf.imp (hs : IsMadeOf part s) (h : ∀ u, part u → part' u) : IsMadeOf part' s := by
  obtain ⟨parts, hparts, rfl⟩ := hs
  exact ⟨parts, fun u hu => h u (hparts u hu), rfl⟩

/-- Every character stands in some part. -/
theorem IsMadeOf.exists_of_mem (hs : IsMadeOf part s) {c : Char} (hc : c ∈ s) :
    ∃ u, part u ∧ c ∈ u := by
  obtain ⟨parts, hparts, rfl⟩ := hs
  obtain ⟨u, hu, hmem⟩ := List.mem_flatten.1 hc
  exact ⟨u, hparts u hu, hmem⟩

/-- Pieces with a separator before each are made of what the pieces and the separator are made
of. -/
theorem isMadeOf_separated {separator : Char} {pieces : List Text} (hsign : part [separator])
    (h : ∀ piece ∈ pieces, IsMadeOf part piece) :
    IsMadeOf part (ArgumentList.separated separator pieces) := by
  induction pieces with
  | nil => exact isMadeOf_nil
  | cons piece pieces ih =>
    obtain ⟨hpiece, hpieces⟩ := List.forall_mem_cons.1 h
    exact ((isMadeOf_self hsign).append hpiece).append (ih hpieces)

end Text

/-! ## Tokens -/

/-- The tokens that texts are made of.  A name may end with the dot that is left of a capital `İ`
when its letters are lowered. -/
inductive IsToken : Text → Prop where
  /-- A binary operator. -/
  | operator {c : Char} (h : c ∈ Tier.letters) : IsToken [c]
  /-- The sign of a factorial. -/
  | factorial : IsToken ['!']
  /-- A numeral, which may have a minus. -/
  | literal {l : Literal} (h : l.WellFormed) : IsToken l.text
  /-- The name of a symbol in any letter case. -/
  | name {s : Symbol} {name : Text}
    (h : name.lowercase = s.letters ∨ name.lowercase = s.letters ++ ['\u0307']) : IsToken name

/-- The signs of an argument list. -/
def listSigns : List Text := [['['], [';'], [']']]

/-- The parts of a text without parentheses, in which there may be argument lists. -/
def IsPart (lists : Prop) (u : Text) : Prop := IsToken u ∨ lists ∧ u ∈ listSigns

/-! ## Readings -/

theorem Literal.text_of_read? {t : Text} {l : Literal} (h : read? t = some l) :
    l.WellFormed ∧ l.text = t := by
  rw [read?] at h
  split at h
  · rename_i l' hscan
    obtain ⟨hwell, htext, -⟩ := wellFormed_of_scan? hscan
    rw [List.append_nil] at htext
    rw [← Option.some.inj h]
    exact ⟨hwell, htext⟩
  · cases h

/-- What is read before what follows a name is a literal, if there is one, and a name. -/
theorem Naming.isMadeOf {t : Text} {n : Naming} (h : read? t = some n) :
    ∃ start, t = start ++ n.rest ∧ start.IsMadeOf IsToken := by
  obtain ⟨name, htext, hletters, hfound, hfactor⟩ := exists_of_read? h
  have haligned := Symbol.aligned_of_atStart? hfound
  rw [← hletters.length_eq, List.take_left] at haligned
  refine ⟨n.factor.elim [] Literal.text ++ name, by rw [List.append_assoc]; exact htext, ?_⟩
  refine Text.IsMadeOf.append ?_ (Text.isMadeOf_self (.name haligned.lowercase_eq))
  cases hl : n.factor with
  | none => exact Text.isMadeOf_nil
  | some l => exact Text.isMadeOf_self (.literal (Literal.wellFormed_of_scan? (hfactor l hl)).1)

namespace Term

mutual
/-- Whether everything in a term could be read. -/
def IsReadable : Term → Prop
  | binary _ _ left right => IsReadable left ∧ IsReadable right
  | factorial operand => IsReadable operand
  | constant _ _ _ tail => IsReadable tail
  | call _ _ _ _ args => AllReadable args
  | absent | literal _ => True
  | tooDeep | emptyCall _ _ _ _ | unreadable _ => False

/-- Whether everything in some terms could be read. -/
def AllReadable : List Term → Prop
  | [] => True
  | t :: rest => IsReadable t ∧ AllReadable rest
end

theorem allReadable_iff {args : List Term} : AllReadable args ↔ ∀ t ∈ args, IsReadable t := by
  induction args with
  | nil => simp [AllReadable]
  | cons t rest ih => simp [AllReadable, ih]

/-- A text in which everything could be read is made of tokens, and of the signs of lists if it has
brackets. -/
theorem isMadeOf_of_isReadable [Stack] {lists : Prop} {room charge : Nat} {t : Text}
    (hlists : '[' ∈ t → lists) (h : (read room charge t).IsReadable) :
    t.IsMadeOf (IsPart lists) := by
  induction room generalizing charge t with
  | zero => exact h.elim
  | succ room ih =>
    cases charge with
    | succ charge =>
      rw [read_charge] at h
      exact ih hlists h
    | zero =>
      obtain ⟨T, hT, hread⟩ := exists_shape t
      rw [hread] at h
      cases hT with
      | absent hnil =>
        rw [hnil]
        exact Text.isMadeOf_nil
      | binary hsplit =>
        obtain ⟨tier, c, hop, rfl⟩ := Split.text_of_loosest? hsplit
        have hsign : IsPart lists [c] :=
          .inl (.operator (Tier.mem_letters (Split.operator?_of_at? hop)))
        have hleft := ih (fun hc => hlists (by simp [hc])) h.1
        have hright := ih (fun hc => hlists (by simp [hc])) h.2
        exact hleft.append ((Text.isMadeOf_self hsign).append hright)
      | factorial hbang =>
        have htext := List.dropLast_append_getLast? '!' hbang
        have hoperand := ih (fun hc => hlists (List.dropLast_subset t hc)) h
        rw [← htext]
        exact hoperand.append (Text.isMadeOf_self (.inl .factorial))
      | constant hname =>
        obtain ⟨start, htext, hstart⟩ := Naming.isMadeOf hname
        have hrest := ih (fun hc => hlists (Naming.rest_subset hname hc)) h
        rw [htext]
        exact (hstart.imp fun _ => .inl).append hrest
      | call hname =>
        obtain ⟨start, htext, hstart⟩ := Naming.isMadeOf hname
        have hrest := ih (fun hc => hlists (Naming.rest_subset hname hc)) h.1
        rw [htext]
        exact (hstart.imp fun _ => .inl).append hrest
      | @list l f rest args hname hlist =>
        obtain ⟨start, htext, hstart⟩ := Naming.isMadeOf hname
        obtain ⟨first, others, rfl, rfl⟩ := ArgumentList.exists_of_read? hlist
        have hbracket : '[' ∈ t := Naming.rest_subset hname List.mem_cons_self
        have hsign : ∀ u ∈ listSigns, IsPart lists u := fun u hu => .inr ⟨hlists hbracket, hu⟩
        have hitem : ∀ item ∈ first :: others, item.IsMadeOf (IsPart lists) := by
          intro item hitem
          exact ih (fun _ => hlists hbracket)
            (allReadable_iff.1 h _ (List.mem_map_of_mem hitem))
        obtain ⟨hfirst, hothers⟩ := List.forall_mem_cons.1 hitem
        have hinner := hfirst.append
          (Text.isMadeOf_separated (hsign [';'] (by simp [listSigns])) hothers)
        have hclose := hinner.append (Text.isMadeOf_self (hsign [']'] (by simp [listSigns])))
        have hopen := (Text.isMadeOf_self (hsign ['['] (by simp [listSigns]))).append hclose
        rw [htext]
        exact (hstart.imp fun _ => .inl).append hopen
      | emptyCall => exact h.elim
      | literal hliteral =>
        obtain ⟨hwell, htext⟩ := Literal.text_of_read? hliteral
        rw [← htext]
        exact Text.isMadeOf_self (.inl (.literal hwell))
      | unreadable => exact h.elim

end Term

end Reckoner
