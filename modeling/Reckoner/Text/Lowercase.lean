import Reckoner.Text.Lowercase.Table

/-!
# Lowercase

The full lowercase form of a text.  All but two capital letters have one small letter each: the
dotted capital `İ` becomes `i` and a combining dot, and a capital sigma becomes the final form at
the end of a word.  A word ends there when a letter stands before the sigma and none after it,
looking past the characters that case ignores.
-/

namespace Reckoner.Text

/-- The small letter of a character, or the character itself. -/
def smallLetter (c : Char) : Char :=
  match caseRuns.find? (·.holds c.toNat) with
  | some run => Char.ofNat (c.toNat + run.shift).toNat
  | none => c

/-- Whether the nearest character that case does not ignore is a letter with case. -/
def meetsCased (t : Text) : Bool :=
  match t.dropWhile (inRanges caseIgnorableRanges) with
  | [] => false
  | c :: _ => inRanges casedRanges c

/-- The lowercase form of one character between the reversed text before it and the text after
it. -/
def lowercaseAt (before : Text) (c : Char) (after : Text) : Text :=
  if c = 'İ' then ['i', '\u0307']
  else if c = 'Σ' then
    if meetsCased before && !meetsCased after then ['ς'] else ['σ']
  else if c.toNat < 128 then [c.toLower]
  else [smallLetter c]

/-- The lowercase form of the rest of a text whose beginning is given in reverse. -/
def lowercaseFrom (before : Text) : Text → Text
  | [] => []
  | c :: rest => lowercaseAt before c rest ++ lowercaseFrom (c :: before) rest

/-- The lowercase form of a text. -/
def lowercase (t : Text) : Text := lowercaseFrom [] t

end Reckoner.Text
