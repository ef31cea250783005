import Reckoner.Text.Slice

/-!
# Embeds

The cards that the bot sends: a title, a description, a colour, and named fields.  The chat service
refuses parts beyond certain lengths, so longer parts are cut and end in three dots.
-/

namespace Reckoner

/-! ## Cards -/

/-- The colours of embeds. -/
inductive EmbedColour where
  | green
  | red
  | blue
  deriving DecidableEq, Repr

/-- The red, green and blue parts of a colour as one number. -/
def EmbedColour.rgb : EmbedColour → Nat
  | .green => 3066993
  | .red => 15158332
  | .blue => 3447003

/-- A named field of an embed. -/
structure EmbedField where
  /-- The name. -/
  name : String
  /-- The text. -/
  value : String
  /-- Whether the field may stand beside others. -/
  besideOthers : Bool := false
  deriving DecidableEq, Repr

/-- A card. -/
structure Embed where
  /-- The title. -/
  title : String
  /-- The text. -/
  description : String
  /-- The colour. -/
  colour : EmbedColour
  /-- The fields. -/
  fields : List EmbedField := []
  /-- The footer, if there is one. -/
  footer : Option String := none
  deriving DecidableEq, Repr

/-! ## Lengths -/

/-- The longest title, in characters. -/
def titleLimit : Int := 256

/-- The longest description, in characters. -/
def descriptionLimit : Int := 4096

/-- The longest field, in characters. -/
def fieldLimit : Int := 1024

/-- The text cut to a length in characters, the last three of which mark the cut. -/
def truncate (t : String) (limit : Int) : String :=
  if (t.toList.length : Int) ≤ limit then t
  else String.ofList (takeTo (limit - 3) t.toList) ++ "..."

end Reckoner
