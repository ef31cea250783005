import Reckoner.Text.Ranges

/-!
# Blank characters

The characters that separate words and are stripped from the ends of a setting, and the two
operations on them: taking them out everywhere, and trimming both ends.
-/

namespace Reckoner.Text

/-- The code points that separate words. -/
def blankRanges : List (Nat × Nat) := [
  (0x09, 0x0D), (0x1C, 0x20), (0x85, 0x85), (0xA0, 0xA0), (0x1680, 0x1680), (0x2000, 0x200A),
  (0x2028, 0x2029), (0x202F, 0x202F), (0x205F, 0x205F), (0x3000, 0x3000)]

/-- Whether the character separates words. -/
def isBlank (c : Char) : Bool := inRanges blankRanges c

/-- The text without its blank characters. -/
def removeBlanks (t : Text) : Text := t.filter fun c => !isBlank c

/-- The text without the blank characters at its end. -/
def trimRight (t : Text) : Text := (t.reverse.dropWhile isBlank).reverse

/-- The text without the blank characters at its two ends. -/
def trim (t : Text) : Text := trimRight (t.dropWhile isBlank)

/-- Whether nothing but blank characters stands in the text. -/
def isBlankText (t : Text) : Bool := t.all isBlank

theorem removeBlanks_eq_self {t : Text} (h : ∀ c ∈ t, isBlank c = false) : removeBlanks t = t := by
  simp only [removeBlanks, List.filter_eq_self]
  intro c hc
  simp [h c hc]

end Reckoner.Text
