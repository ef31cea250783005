import Reckoner.Expression.Numeral
import Reckoner.Expression.Split
import Reckoner.Expression.Stack
import Reckoner.Symbol.Lookup

/-!
# Terms

A term is what a text without parentheses means before anything is computed.  A text is split at
the rightmost operator of its loosest tier, so operators of one tier bind to the left.  A text
without operators is a factorial, a name with an optional factor in front and something behind it,
or a literal.  Every part keeps the text that it was read from, for the trace.
-/

namespace Reckoner

/-- The reading of a text without parentheses. -/
inductive Term where
  /-- Nothing is written; what it counts as depends on the place. -/
  | absent
  /-- The text is nested too deep to be read. -/
  | tooDeep
  /-- An operator between two terms. -/
  | binary (op : Operator) (source : Text) (left right : Term)
  /-- A factorial. -/
  | factorial (operand : Term)
  /-- A constant with a factor, times what follows it. -/
  | constant (source : Text) (factor : Option Literal) (c : MathConstant) (tail : Term)
  /-- A function applied to arguments, times a factor. -/
  | call (source : Text) (factor : Option Literal) (f : MathFunction) (written : Text)
      (args : List Term)
  /-- A function without an argument, or with an empty item in its argument list. -/
  | emptyCall (source : Text) (factor : Option Literal) (f : MathFunction) (written : Text)
  /-- A literal. -/
  | literal (l : Literal)
  /-- A text that is none of these. -/
  | unreadable (text : Text)

/-! ## Names -/

/-- A name at the beginning of a text, with the factor before it and the text behind it. -/
structure Naming where
  /-- The factor before the name. -/
  factor : Option Literal
  /-- The named symbol. -/
  symbol : Symbol
  /-- The text behind the name. -/
  rest : Text
  deriving DecidableEq, Repr

/-- The name at the beginning of a text, after an optional factor. -/
def Naming.read? (t : Text) : Option Naming :=
  let (factor, name) : Option Literal × Text :=
    match Literal.scan? t with
    | some (l, rest) => (some l, rest)
    | none => (none, t)
  (Symbol.atStart? name).map fun s => ⟨factor, s, name.drop s.letters.length⟩

/-! ## Reading -/

namespace Term

variable [Stack]

/-- Reads a text without parentheses.  `room` is the number of levels left and `charge` the number
of levels to leave free first: an operand takes one level, what follows a constant takes two, a
bare argument three, and an item of an argument list as many as the stack says.  A level that has no
room is not begun. -/
def read : (room charge : Nat) → Text → Term
  | 0, _, _ => tooDeep
  | room + 1, charge + 1, t => read room charge t
  | _ + 1, 0, [] => absent
  | room + 1, 0, t =>
    match Split.loosest? t with
    | some split => binary split.operator t (read room 0 split.before) (read room 0 split.after)
    | none =>
      if t.getLast? = some '!' then factorial (read room 0 t.dropLast)
      else
        match Naming.read? t with
        | some ⟨factor, .constant c, rest⟩ => constant t factor c (read room 1 rest)
        | some ⟨factor, .function f, rest⟩ =>
          match rest, ArgumentList.read? rest with
          | [], _ => emptyCall t factor f rest
          | _, none => call t factor f rest [read room 2 rest]
          | _, some items =>
            if items.any List.isEmpty then emptyCall t factor f rest
            else call t factor f rest (items.map fun item => read room Stack.itemCharge item)
        | none =>
          match Literal.read? t with
          | some l => literal l
          | none => unreadable t

/-- Reads a text without parentheses with all levels left. -/
def ofText (t : Text) : Term := read Stack.levels 0 t

end Term

end Reckoner
