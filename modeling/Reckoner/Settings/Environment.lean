import Reckoner.Report.Basic
import Reckoner.Settings.Limit
import Reckoner.Settings.Prefix

/-!
# Settings

The settings of the bot, read from environment variables.  A numeric id that is not written in
digits counts as absent.
-/

namespace Reckoner

/-- The environment variables that are set, with their texts. -/
abbrev Environment := List (String × String)

/-- The settings of the bot. -/
structure Settings where
  /-- The secret that the bot connects with. -/
  token : Option String
  /-- The command prefixes. -/
  prefixes : List Text
  /-- The user that owns the bot. -/
  ownerId : Option Int
  /-- The channel for announcements. -/
  systemChannelId : Option Int
  /-- Whether the bot listens to its owner only. -/
  devMode : Bool
  /-- The limits of an evaluation. -/
  limits : Limits
  deriving DecidableEq

/-- Settings and what was logged about them. -/
structure ReadSettings where
  /-- The settings. -/
  settings : Settings
  /-- The log. -/
  log : List LogRecord
  deriving DecidableEq

/-- An id whose digits are not all decimal, or too many. -/
structure IdFault where
  /-- The text of the id. -/
  text : Text
  /-- What is wrong with it. -/
  fault : Text.IntegerFault
  deriving DecidableEq

/-- How many characters of a quoted id are shown. -/
def shownIdLength : Nat := 200

/-- The wording of a faulty id. -/
def IdFault.message (f : IdFault) : String :=
  match f.fault with
  | .malformed =>
    let shown := String.ofList (f.text.quoted.take shownIdLength)
    s!"invalid literal for int() with base 10: {shown}"
  | .tooLong digits =>
    s!"Exceeds the limit ({Text.maxIntegerDigits} digits) for integer string conversion: " ++
      s!"value has {digits} digits; use sys.set_int_max_str_digits() to increase the limit"

/-- Reads an id. -/
def readId : Option Text → Except IdFault (Option Int)
  | none => .ok none
  | some t =>
    if t.isEmpty || !t.all Text.isDigit then .ok none
    else
      match Text.readInteger t with
      | .ok value => .ok (some value)
      | .error fault => .error ⟨t, fault⟩

/-- The texts that turn the developer mode on, in small letters. -/
def affirmatives : List String := ["true", "1", "t"]

/-- Whether a text turns the developer mode on. -/
def isAffirmative (t : Text) : Bool := affirmatives.contains (String.ofList t.lowercase)

/-- The names of the limits in the environment. -/
structure LimitNames where
  /-- The limit of dice. -/
  dice : String := "MATH_MAX_ROLLS"
  /-- The limit of listed dice operators. -/
  listedDice : String := "MATH_MAX_ROLLS_VERBOSE_DICE"
  /-- The limit of listed characters. -/
  listedChars : String := "MATH_MAX_ROLLS_VERBOSE_CHARS"
  /-- The limit of steps. -/
  steps : String := "MATH_MAX_TRACE_STEPS"

/-- Reads the settings. -/
def readSettings (environment : Environment) : Except IdFault ReadSettings := do
  let text (name : String) : Option Text := (environment.lookup name).map String.toList
  let ownerId ← readId (text "OWNER_ID")
  let systemChannelId ← readId (text "SYSTEM_CHANNEL_ID")
  let defaults : Limits := {}
  let names : LimitNames := {}
  let dice := readLimit names.dice defaults.dice (text names.dice)
  let listedDice := readLimit names.listedDice defaults.listedDice (text names.listedDice)
  let listedChars := readLimit names.listedChars defaults.listedChars (text names.listedChars)
  let steps := readLimit names.steps defaults.steps (text names.steps)
  return {
    settings := {
      token := environment.lookup "DISCORD_TOKEN"
      prefixes := ((text "BOT_PREFIX").map parsePrefixes).getD []
      ownerId := ownerId
      systemChannelId := systemChannelId
      devMode := ((text "DEV_MODE").map isAffirmative).getD false
      limits := ⟨dice.value, listedDice.value, listedChars.value, steps.value⟩ }
    log := dice.log ++ listedDice.log ++ listedChars.log ++ steps.log }

end Reckoner
