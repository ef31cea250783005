import Reckoner.Text.Blank
import Reckoner.Text.Lowercase

/-!
# Command prefixes

The prefixes are written in one setting with commas between them.  Each is stripped of blanks and
ends in one space, which divides it from the command; longer prefixes come first.  A message is
matched in any letter case, and the prefix that is found is cut from the message as it was typed.
-/

namespace Reckoner

/-! ## The setting -/

/-- Cuts a text at every occurrence of a character; `piece` is the reversed beginning of the first
piece. -/
def cutAt (separator : Char) (piece : Text) : Text → List Text
  | [] => [piece.reverse]
  | c :: rest =>
    if c = separator then piece.reverse :: cutAt separator [] rest
    else cutAt separator (c :: piece) rest

/-- The longer text first; equally long ones stay in their order. -/
def longestFirst (texts : List Text) : List Text :=
  texts.mergeSort fun a b => b.length ≤ a.length

/-- The prefixes of a setting. -/
def parsePrefixes (setting : Text) : List Text :=
  longestFirst (((cutAt ',' [] setting).filter fun p => !p.trim.isEmpty).map
    fun p => p.trim ++ [' '])

/-! ## Messages -/

/-- Whether a message begins with a prefix, in any letter case. -/
def beginsWith (message p : Text) : Bool := p.lowercase.isPrefixOf message.lowercase

/-- What the message may begin with to be a command: the part of it that matches the longest of the
prefixes, or one of the given mentions of the bot if there is none. -/
def commandPrefixes (mentions prefixes : List Text) (message : Text) : List Text :=
  match longestFirst (prefixes.filter (beginsWith message)) with
  | [] => mentions
  | p :: _ => [message.take p.length]

end Reckoner
