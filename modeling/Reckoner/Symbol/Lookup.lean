import Reckoner.Symbol.Basic
import Reckoner.Text.Lowercase

/-!
# Names at the beginning of a text

An expression names a symbol in any letter case and with anything after it, so the name is looked
for at the beginning of the lowercase text.  The longest name wins: `electron` before `e`.
-/

namespace Reckoner.Symbol

/-- The symbols whose names stand at the beginning of a lowercase text. -/
def candidates (lowered : Text) : List Symbol := all.filter (·.letters.isPrefixOf lowered)

/-- The symbol with the longest name at the beginning of a text, in any letter case. -/
def atStart? (t : Text) : Option Symbol :=
  (candidates t.lowercase).maxOn? (·.letters.length)

end Reckoner.Symbol
