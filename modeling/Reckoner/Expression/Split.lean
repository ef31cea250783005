import Reckoner.Expression.Operator

/-!
# Splitting a text outside its lists

Argument lists stand in square brackets.  An operator, a comma or a semicolon counts only at depth
zero, outside every list.  The depth is counted from the left for separators and from the right for
operators, because the rightmost operator is the one a text is split at.
-/

namespace Reckoner

/-! ## Operators -/

/-- A text split at an operator. -/
structure Split where
  /-- The text before the operator. -/
  before : Text
  /-- The operator. -/
  operator : Operator
  /-- The text after the operator. -/
  after : Text
  deriving DecidableEq, Repr

namespace Split

/-- Looks for an operator of a tier in a reversed text, going left; `after` has been passed, and
`depth` lists are open. -/
def goLeft (tier : Tier) (depth : Int) (after : Text) : Text → Option Split
  | [] => none
  | c :: before =>
    if c = ']' then goLeft tier (depth + 1) (c :: after) before
    else if c = '[' then goLeft tier (depth - 1) (c :: after) before
    else
      match if depth = 0 then Operator.at? tier before c else none with
      | some op => some ⟨before.reverse, op, after⟩
      | none => goLeft tier depth (c :: after) before

/-- The text split at its rightmost operator of a tier. -/
def atTier? (tier : Tier) (t : Text) : Option Split := goLeft tier 0 [] t.reverse

/-- The text split at its rightmost operator of the loosest tier that it has. -/
def loosest? (t : Text) : Option Split := Tier.all.findSome? (atTier? · t)

end Split

/-! ## Lists -/

namespace ArgumentList

/-- The number of open lists after a character. -/
def depthAfter (depth : Int) (c : Char) : Int :=
  if c = '[' then depth + 1 else if c = ']' then depth - 1 else depth

/-- Whether a comma stands outside every list. -/
def hasComma (depth : Int) : Text → Bool
  | [] => false
  | c :: rest => (c == ',' && depth == 0) || hasComma (depthAfter depth c) rest

/-- The text with a semicolon for every comma outside every list. -/
def semicolons (depth : Int) : Text → Text
  | [] => []
  | c :: rest =>
    (if c = ',' && depth = 0 then ';' else c) :: semicolons (depthAfter depth c) rest

/-- Cuts a text at the semicolons outside every list; `item` is the reversed beginning of the
first piece. -/
def items (depth : Int) (item : Text) : Text → List Text
  | [] => [item.reverse]
  | c :: rest =>
    if c = ';' && depth = 0 then item.reverse :: items depth [] rest
    else items (depthAfter depth c) (c :: item) rest

/-- The position of the bracket that closes the list open at the beginning. -/
def closing? (depth : Int) (position : Nat) : Text → Option Nat
  | [] => none
  | c :: rest =>
    if c = ']' && depth = 1 then some position
    else closing? (depthAfter depth c) (position + 1) rest

/-- The items of a text that is one list from its first to its last character. -/
def read? : Text → Option (List Text)
  | '[' :: rest =>
    if closing? 0 0 ('[' :: rest) = some rest.length then some (items 0 [] rest.dropLast)
    else none
  | _ => none

end ArgumentList

end Reckoner
