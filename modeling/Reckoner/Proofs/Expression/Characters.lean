import Mathlib
import Reckoner.Proofs.Expression.Token

/-!
# The characters of a text

A text is read into terms that keep no other characters than its own (`Term.usesOnly_read`).  What
an evaluation writes by itself is numbers, stars and the signs of groups and lists
(`Text.isOwnSign`).
-/

namespace Reckoner

/-! ## Texts -/

namespace Text

variable {allowed : Char → Prop} {s t : Text}

/-- Whether all characters of a text are allowed. -/
def UsesOnly (allowed : Char → Prop) (t : Text) : Prop := ∀ c ∈ t, allowed c

theorem UsesOnly.mono (h : t.UsesOnly allowed) (hs : s ⊆ t) : s.UsesOnly allowed :=
  fun c hc => h c (hs hc)

theorem usesOnly_nil : UsesOnly allowed [] := fun _ hc => absurd hc List.not_mem_nil

theorem usesOnly_cons {c : Char} :
    UsesOnly allowed (c :: t) ↔ allowed c ∧ t.UsesOnly allowed := List.forall_mem_cons

theorem usesOnly_append :
    UsesOnly allowed (s ++ t) ↔ s.UsesOnly allowed ∧ t.UsesOnly allowed := List.forall_mem_append

/-- The characters that an evaluation writes by itself. -/
def isOwnSign (c : Char) : Bool :=
  Number.isFigure c || ['E', Literal.minus, 'd', '!', '*', '[', ';', ']', '(', ')'].contains c

/-- The characters are allowed that an evaluation writes by itself. -/
def AllowsOwn (allowed : Char → Prop) : Prop := ∀ c, isOwnSign c = true → allowed c

variable (hown : AllowsOwn allowed)
include hown

theorem usesOnly_of_isOwnSign (h : ∀ c ∈ t, isOwnSign c = true) : t.UsesOnly allowed :=
  fun c hc => hown c (h c hc)

/-- The plain text of a finite number. -/
theorem usesOnly_plainText {x : Float} (hx : x.isFinite = true) :
    UsesOnly allowed (Number.plainText x) := by
  refine usesOnly_of_isOwnSign hown fun c hc => ?_
  rw [isOwnSign, Number.isFigure_of_mem_plainText hx hc, Bool.true_or]

/-- The literal of a finite number. -/
theorem usesOnly_ofFloat {x : Float} (hx : x.isFinite = true) :
    UsesOnly allowed (Literal.ofFloat x) := by
  have hupper : ∀ c, Number.isFigure c = true → isOwnSign c.toUpper = true := by
    intro c hc
    simp only [Number.isFigure, Bool.or_eq_true, List.contains_iff_mem] at hc
    rcases hc with hdigit | hsign
    · rw [toUpper_of_isDigit hdigit, isOwnSign, Number.isFigure_of_isDigit hdigit, Bool.true_or]
    · fin_cases hsign <;> decide
  have hunsigned : UsesOnly allowed ((Number.plainText x.abs).map Char.toUpper) := by
    refine usesOnly_of_isOwnSign hown fun c hc => ?_
    obtain ⟨d, hd, rfl⟩ := List.mem_map.1 hc
    refine hupper d (Number.isFigure_of_mem_plainText ?_ hd)
    rwa [Number.isFinite_abs]
  unfold Literal.ofFloat
  split
  · exact usesOnly_cons.2 ⟨hown _ (by decide), hunsigned⟩
  · exact hunsigned

/-- A literal as it is shown in a trace. -/
theorem usesOnly_shown {l : Literal} (h : l.text.UsesOnly allowed) : l.shown.UsesOnly allowed := by
  obtain ⟨-, hnumeral⟩ := usesOnly_append.1 h
  refine usesOnly_append.2 ⟨?_, hnumeral⟩
  have hsigns : ['(', '-', ')'].all isOwnSign = true := by decide
  split
  · exact usesOnly_of_isOwnSign hown (List.all_eq_true.1 hsigns)
  · exact usesOnly_nil

end Text

/-! ## Parts of a text -/

theorem Split.parts_subset {t : Text} {s : Split} (h : loosest? t = some s) :
    s.before ⊆ t ∧ s.after ⊆ t := by
  obtain ⟨tier, c, -, rfl⟩ := text_of_loosest? h
  exact ⟨List.subset_append_left _ _,
    List.Subset.trans (List.subset_cons_self c _) (List.subset_append_right _ _)⟩

/-- The factor before a name, as it is written. -/
def Literal.optionText (l : Option Literal) : Text := l.elim [] text

theorem Naming.factor_subset {t : Text} {n : Naming} (h : read? t = some n) :
    Literal.optionText n.factor ⊆ t := by
  obtain ⟨name, htext, -⟩ := exists_of_read? h
  conv_rhs => rw [htext]
  exact List.subset_append_left _ _

theorem ArgumentList.usesOnly_semicolons {allowed : Char → Prop} (hown : Text.AllowsOwn allowed)
    {t : Text} (h : t.UsesOnly allowed) (depth : Int) : (semicolons depth t).UsesOnly allowed := by
  intro c hc
  rcases mem_semicolons hc with rfl | hc
  · exact hown _ (by decide)
  · exact h c hc

/-! ## Terms -/

namespace Term

mutual
/-- Whether the texts that a term keeps have allowed characters only. -/
def UsesOnly (allowed : Char → Prop) : Term → Prop
  | binary _ source left right =>
    source.UsesOnly allowed ∧ UsesOnly allowed left ∧ UsesOnly allowed right
  | factorial operand => UsesOnly allowed operand
  | constant source factor _ tail =>
    source.UsesOnly allowed ∧ (Literal.optionText factor).UsesOnly allowed ∧ UsesOnly allowed tail
  | call source factor _ _ args =>
    source.UsesOnly allowed ∧ (Literal.optionText factor).UsesOnly allowed ∧
      AllUseOnly allowed args
  | emptyCall source factor _ _ =>
    source.UsesOnly allowed ∧ (Literal.optionText factor).UsesOnly allowed
  | literal l => l.text.UsesOnly allowed
  | absent | tooDeep | unreadable _ => True

/-- Whether the texts that some terms keep have allowed characters only. -/
def AllUseOnly (allowed : Char → Prop) : List Term → Prop
  | [] => True
  | t :: rest => UsesOnly allowed t ∧ AllUseOnly allowed rest
end

variable {allowed : Char → Prop}

theorem allUseOnly_iff {args : List Term} :
    AllUseOnly allowed args ↔ ∀ t ∈ args, UsesOnly allowed t := by
  induction args with
  | nil => simp [AllUseOnly]
  | cons t rest ih => simp [AllUseOnly, ih]

/-- A term keeps the characters of its text only. -/
theorem usesOnly_read [Stack] (room charge : Nat) {t : Text} (h : t.UsesOnly allowed) :
    (read room charge t).UsesOnly allowed := by
  induction room generalizing charge t with
  | zero => exact trivial
  | succ room ih =>
    cases charge with
    | succ charge => exact read_charge charge t ▸ ih charge h
    | zero =>
      obtain ⟨T, hT, hread⟩ := exists_shape t
      rw [hread]
      cases hT with
      | absent => exact trivial
      | binary hsplit =>
        obtain ⟨hbefore, hafter⟩ := Split.parts_subset hsplit
        exact ⟨h, ih 0 (h.mono hbefore), ih 0 (h.mono hafter)⟩
      | factorial => exact ih 0 (h.mono (List.dropLast_subset t))
      | constant hname =>
        exact ⟨h, h.mono (Naming.factor_subset hname), ih 1 (h.mono (Naming.rest_subset hname))⟩
      | call hname =>
        exact ⟨h, h.mono (Naming.factor_subset hname), ih 2 (h.mono (Naming.rest_subset hname)),
          trivial⟩
      | list hname hlist =>
        have hrest := h.mono (Naming.rest_subset hname)
        refine ⟨h, h.mono (Naming.factor_subset hname), allUseOnly_iff.2 fun arg harg => ?_⟩
        obtain ⟨item, hitem, rfl⟩ := List.mem_map.1 harg
        exact ih _ (hrest.mono (ArgumentList.item_subset_of_read? hlist hitem))
      | emptyCall hname => exact ⟨h, h.mono (Naming.factor_subset hname)⟩
      | literal hliteral =>
        obtain ⟨-, htext⟩ := Literal.text_of_read? hliteral
        rw [← htext] at h
        exact h
      | unreadable => exact trivial

end Term

end Reckoner
