import Reckoner.Log.Record
import Reckoner.Text.Integer
import Reckoner.Text.Quoted

/-!
# Limits in the settings

A limit is a whole number that is not negative.  A setting that is absent or blank means the
default, and so does any other text, with a warning.
-/

namespace Reckoner

/-- A setting and what was logged about it. -/
structure ReadLimit where
  /-- The limit. -/
  value : Int
  /-- The log. -/
  log : List LogRecord
  deriving DecidableEq

/-- The end of a warning about a limit. -/
def usingDefault (default : Int) : String := s!"Using the default of {default}."

/-- Reads the limit of a name. -/
def readLimit (name : String) (default : Int) : Option Text → ReadLimit
  | none => ⟨default, []⟩
  | some t =>
    if t.trim.isEmpty then ⟨default, []⟩
    else
      match Text.readInteger t with
      | .error _ =>
        let shown := String.ofList t.quoted
        let complaint := s!"{name}={shown} is not an integer. "
        ⟨default, [⟨.warning, complaint ++ usingDefault default, rootLogger⟩]⟩
      | .ok value =>
        if value < 0 then
          let complaint := s!"{name}={value} is negative. "
          ⟨default, [⟨.warning, complaint ++ usingDefault default, rootLogger⟩]⟩
        else ⟨value, []⟩

end Reckoner
