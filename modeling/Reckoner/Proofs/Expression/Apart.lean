import Mathlib
import Reckoner.Proofs.Expression.Beginning

/-!
# What may stand behind arguments

The arguments of a function end where something stands apart from them (`Text.StandsApart`): it
cannot be read as more digits of a literal, and no name begins there that would take the literal as
its factor.  Arguments with such a text behind them are no arguments any more
(`Term.read_arguments_append`), unless there is an operator or a factorial in it.
-/

namespace Reckoner

/-- Whether a name may begin with the character, in any case. -/
def Symbol.beginsWith (c : Char) : Bool :=
  Symbol.all.any fun s => (Text.lowercaseAt [] c []).head? == s.letters.head?

namespace Text

/-- Whether the character goes on neither with a literal nor with a name that a literal may be the
factor of. -/
def isApart (c : Char) : Bool := !isDecimal c && c != '.' && !Symbol.beginsWith c

/-- A text that is no part of what stands before it. -/
def StandsApart (t : Text) : Prop := t.head?.all isApart = true

variable {x t : Text}

theorem StandsApart.isApart {c : Char} (h : StandsApart (c :: t)) : isApart c = true := h

/-- The beginning of a text that stands apart does so too. -/
theorem StandsApart.of_append {s : Text} (h : StandsApart (s ++ t)) : StandsApart s := by
  cases s with
  | nil => rfl
  | cons c s => exact h

namespace StandsApart

variable (h : StandsApart t)
include h

/-- No name begins there. -/
theorem atStart?_eq_none : Symbol.atStart? t = none := by
  cases hs : Symbol.atStart? t with
  | none => rfl
  | some s =>
    obtain ⟨cut, htext, hlower⟩ := Symbol.exists_of_atStart? hs
    obtain ⟨a, letters, hletters⟩ := List.exists_cons_of_ne_nil s.letters_ne_nil
    rw [hletters] at hlower
    cases hlower with
    | @cons c _ cut _ hc _ =>
      have hbegins : Symbol.beginsWith c = true :=
        List.any_eq_true.2 ⟨s, s.mem_all, by rw [hletters, hc]; exact beq_self_eq_true (some a)⟩
      rw [htext] at h
      have hapart := h.isApart
      rw [Text.isApart, hbegins] at hapart
      simp at hapart

/-- No literal goes on there. -/
theorem not_literal : ∀ c ∈ t.head?, isDecimal c = false ∧ c ≠ '.' ∧ c ≠ 'E' := by
  intro c hc
  obtain ⟨rest, rfl⟩ := List.head?_eq_some_iff.1 hc
  have hapart := h.isApart
  simp only [Text.isApart, Bool.and_eq_true, Bool.not_eq_true', bne_iff_ne] at hapart
  refine ⟨hapart.1.1, hapart.1.2, ?_⟩
  rintro rfl
  exact absurd hapart.2 (by decide)

theorem head?_ne_exponent : t.head? ≠ some 'E' := fun hE => (h.not_literal 'E' hE).2.2 rfl

end StandsApart

/-! ## Arguments -/

/-- What a group of arguments is replaced with. -/
inductive IsArguments : Text → Prop where
  /-- One argument. -/
  | literal {l : Literal} (h : l.WellFormed) : IsArguments l.text
  /-- Some arguments. -/
  | list {t : Text} (h : Listed t) : IsArguments ('[' :: (t ++ [']']))

theorem isOperand_literal {l : Literal} (h : l.WellFormed) : IsOperand l.text where
  passes _ := Split.passes_literal h
  last := by
    obtain ⟨start, c, hlast, hc⟩ := Term.exists_last_literal h
    exact ⟨start, c, hlast, .inl hc⟩

namespace IsArguments

variable (h : IsArguments x)
include h

theorem passes (tier : Tier) (before : Text) : Split.Passes tier before x := by
  cases h with
  | literal h => exact Split.passes_literal h
  | list h => exact Split.passes_brackets h tier before

theorem last : ∃ start c, x = start ++ [c] ∧ (Numeral.isMantissa c = true ∨ c = ']') := by
  cases h with
  | literal h => exact (isOperand_literal h).last
  | @list t h => exact ⟨'[' :: t, ']', rfl, .inr rfl⟩

theorem isOperand : IsOperand x := ⟨fun tier => h.passes tier [], h.last⟩

/-- A function with its arguments is an operand. -/
theorem isOperand_function (f : MathFunction) : IsOperand ((Symbol.function f).letters ++ x) where
  passes tier := (Split.passes_of_isPlain fun _ hc => (Symbol.isPlain_of_mem hc).1).append
    (h.passes tier _)
  last := by
    obtain ⟨start, c, rfl, hc⟩ := h.last
    exact ⟨(Symbol.function f).letters ++ start, c, by simp, hc⟩

/-- Arguments with something behind them are no list. -/
theorem read?_append (ht : t ≠ []) : ArgumentList.read? (x ++ t) = none := by
  cases h with
  | @literal l h =>
    obtain ⟨c, rest, hl⟩ := List.exists_cons_of_ne_nil (Term.literal_ne_nil h)
    have hc : c ≠ '[' := by
      rintro rfl
      exact absurd (Literal.isLetter_of_mem h '[' (by simp [hl])) (by decide)
    rw [hl, List.cons_append, ArgumentList.read?]
    exact fun rest' heq => hc (List.cons.inj heq).1
  | list h => exact ArgumentList.read?_eq_none h ht

/-- Arguments with something apart behind them begin with no name and are no literal. -/
theorem naming_append (hapart : StandsApart t) (ht : t ≠ []) :
    Naming.read? (x ++ t) = none ∧ Literal.read? (x ++ t) = none := by
  cases h with
  | literal h =>
    have hscan := Literal.scan?_append h hapart.not_literal
    refine ⟨?_, ?_⟩
    · simp [Naming.read?, hscan, hapart.atStart?_eq_none]
    · obtain ⟨c, rest, rfl⟩ := List.exists_cons_of_ne_nil ht
      simp only [Literal.read?, hscan]
  | @list s h =>
    have hscan : Literal.scan? ('[' :: (s ++ [']']) ++ t) = none := by
      rw [List.cons_append, Literal.scan?, if_neg (by decide), Numeral.scan?_eq_none (by decide)]
      rfl
    have hbracket : StandsApart ('[' :: (s ++ [']']) ++ t) := by
      show isApart '[' = true
      decide
    rw [Naming.read?, Literal.read?, hscan]
    refine ⟨?_, rfl⟩
    simp only [hbracket.atStart?_eq_none, Option.map_none]

end IsArguments

end Text

/-! ## Reading -/

namespace Term

open Text

variable [Stack] {x t : Text} (h : x.IsArguments) (hapart : StandsApart t) (ht : t ≠ [])
  (hdepth : t.foldl ArgumentList.depthAfter 0 = 0) (hsplit : Split.loosest? t = none)
  (hbang : t.getLast? ≠ some '!')
include h hapart ht hdepth hsplit hbang

/-- Arguments with something behind them that they do not take are nothing. -/
theorem read_arguments_append (room : Nat) : read (room + 1) 0 (x ++ t) = unreadable (x ++ t) := by
  have hnone : Split.loosest? (x ++ t) = none := by
    rw [Split.loosest?_append h.isOperand hdepth hapart.head?_ne_exponent, hsplit]
    rfl
  have hlast : (x ++ t).getLast? ≠ some '!' := by
    rwa [List.getLast?_append_of_ne_nil _ ht]
  obtain ⟨hname, hliteral⟩ := h.naming_append hapart ht
  rw [read.eq_4 _ _ (List.append_ne_nil_of_right_ne_nil x ht), hnone, if_neg hlast, hname, hliteral]

/-- A function takes everything that stands behind its name as its argument. -/
theorem read_function_append (f : MathFunction) (room : Nat) :
    read (room + 1) 0 ((Symbol.function f).letters ++ (x ++ t)) =
      call ((Symbol.function f).letters ++ (x ++ t)) none f (x ++ t) [read room 2 (x ++ t)] := by
  have hne := List.append_ne_nil_of_right_ne_nil x ht
  have hnone : Split.loosest? ((Symbol.function f).letters ++ (x ++ t)) = none := by
    rw [← List.append_assoc, Split.loosest?_append (h.isOperand_function f) hdepth
      hapart.head?_ne_exponent, hsplit]
    rfl
  have hlast : ((Symbol.function f).letters ++ (x ++ t)).getLast? ≠ some '!' := by
    rwa [List.getLast?_append_of_ne_nil _ hne, List.getLast?_append_of_ne_nil _ ht]
  rw [read.eq_4 _ _ (List.append_ne_nil_of_right_ne_nil _ hne), hnone, if_neg hlast,
    Naming.read?_function]
  have hlist := h.read?_append ht
  generalize x ++ t = rest at hne hlist ⊢
  cases rest with
  | nil => exact absurd rfl hne
  | cons c rest => simp only [hlist]

end Term

end Reckoner
