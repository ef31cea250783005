import Mathlib
import Reckoner.Proofs.Expression.Dice

/-!
# The shape of what is read

What a text is read as does not depend on how many levels it may be nested, but for the places where
they run out: the text alone decides which construct it is and which texts are its parts
(`Term.Shape`).
-/

namespace Reckoner

namespace Term

variable [Stack]

/-- Levels that are left free first are not there for the text. -/
theorem read_eq_sub (room charge : Nat) (t : Text) :
    read room charge t = read (room - charge) 0 t := by
  induction room generalizing charge with
  | zero =>
    rw [Nat.zero_sub, read, read]
  | succ room ih =>
    cases charge with
    | zero => rfl
    | succ charge => rw [read_charge, ih, Nat.add_sub_add_right]

/-- What a text is read as, for every number of levels that are left for its parts. -/
inductive Shape (t : Text) : (Nat → Term) → Prop where
  /-- There is nothing to read. -/
  | absent (h : t = []) : Shape t fun _ => absent
  /-- An operator and its operands. -/
  | binary {s : Split} (h : Split.loosest? t = some s) :
    Shape t fun room => binary s.operator t (read room 0 s.before) (read room 0 s.after)
  /-- A factorial. -/
  | factorial (h : t.getLast? = some '!') : Shape t fun room => factorial (read room 0 t.dropLast)
  /-- A constant and what stands behind it. -/
  | constant {l : Option Literal} {c : MathConstant} {rest : Text}
    (h : Naming.read? t = some ⟨l, .constant c, rest⟩) :
    Shape t fun room => constant t l c (read room 1 rest)
  /-- A function and a bare argument. -/
  | call {l : Option Literal} {f : MathFunction} {rest : Text}
    (h : Naming.read? t = some ⟨l, .function f, rest⟩) :
    Shape t fun room => call t l f rest [read room 2 rest]
  /-- A function and a list of arguments. -/
  | list {l : Option Literal} {f : MathFunction} {rest : Text} {args : List Text}
    (h : Naming.read? t = some ⟨l, .function f, rest⟩)
    (hlist : ArgumentList.read? rest = some args) :
    Shape t fun room => call t l f rest (args.map fun item => read room Stack.itemCharge item)
  /-- A function without an argument. -/
  | emptyCall {l : Option Literal} {f : MathFunction} {rest : Text}
    (h : Naming.read? t = some ⟨l, .function f, rest⟩) : Shape t fun _ => emptyCall t l f rest
  /-- A literal. -/
  | literal {l : Literal} (h : Literal.read? t = some l) : Shape t fun _ => literal l
  /-- None of these. -/
  | unreadable : Shape t fun _ => unreadable t

theorem exists_shape (t : Text) : ∃ T, Shape t T ∧ ∀ room, read (room + 1) 0 t = T room := by
  by_cases hnil : t = []
  · exact ⟨_, .absent hnil, fun room => by rw [hnil, read_nil]⟩
  cases hsplit : Split.loosest? t with
  | some s => exact ⟨_, .binary hsplit, fun room => read_of_loosest? hnil hsplit⟩
  | none =>
    by_cases hbang : t.getLast? = some '!'
    · refine ⟨_, .factorial hbang, fun room => ?_⟩
      rw [read.eq_4 _ _ hnil, hsplit, if_pos hbang]
    cases hname : Naming.read? t with
    | none =>
      cases hliteral : Literal.read? t with
      | none =>
        refine ⟨_, .unreadable, fun room => ?_⟩
        rw [read.eq_4 _ _ hnil, hsplit, if_neg hbang, hname, hliteral]
      | some l =>
        refine ⟨_, .literal hliteral, fun room => ?_⟩
        rw [read.eq_4 _ _ hnil, hsplit, if_neg hbang, hname, hliteral]
    | some n =>
      obtain ⟨factor, symbol, rest⟩ := n
      cases symbol with
      | constant c =>
        refine ⟨_, .constant hname, fun room => ?_⟩
        rw [read.eq_4 _ _ hnil, hsplit, if_neg hbang, hname]
      | function f =>
        cases rest with
        | nil =>
          refine ⟨_, .emptyCall hname, fun room => ?_⟩
          rw [read.eq_4 _ _ hnil, hsplit, if_neg hbang, hname]
        | cons c rest =>
          cases hlist : ArgumentList.read? (c :: rest) with
          | none =>
            refine ⟨_, .call hname, fun room => ?_⟩
            simp only [read.eq_4 _ _ hnil, hsplit, if_neg hbang, hname, hlist]
          | some args =>
            by_cases hempty : args.any List.isEmpty = true
            · refine ⟨_, .emptyCall hname, fun room => ?_⟩
              simp only [read.eq_4 _ _ hnil, hsplit, if_neg hbang, hname, hlist, if_pos hempty]
            · refine ⟨_, .list hname hlist, fun room => ?_⟩
              simp only [read.eq_4 _ _ hnil, hsplit, if_neg hbang, hname, hlist, if_neg hempty]

/-- Something that is written is not read as nothing. -/
theorem read_ne_absent {t : Text} (h : t ≠ []) (room charge : Nat) :
    read room charge t ≠ absent := by
  rw [read_eq_sub]
  cases room - charge with
  | zero => simp [read]
  | succ room =>
    obtain ⟨T, hshape, hread⟩ := exists_shape t
    rw [hread]
    cases hshape with
    | absent hnil => exact absurd hnil h
    | _ => simp

end Term

end Reckoner
