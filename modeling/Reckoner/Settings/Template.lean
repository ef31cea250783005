import Reckoner.Settings.Environment

/-!
# The settings file

When the settings file is missing, a template of it is written, and the bot tells the user to fill
it in and ends.
-/

namespace Reckoner

/-- The name of the settings file. -/
def settingsFileName : String := "info.env"

/-- The template of the settings file. -/
def settingsTemplate : String :=
  let defaults : Limits := {}
  let names : LimitNames := {}
  "# Discord Token for bot start up.\n" ++
  "DISCORD_TOKEN=\n\n" ++
  "# Bot Prefixes, ensure they're seperated with commas.\n" ++
  "BOT_PREFIX=\n\n" ++
  "# (Optional) Owner ID for owner specific commands.\n" ++
  "OWNER_ID=\n\n" ++
  "# (Optional) Channel ID for startup/shutdown messages.\n" ++
  "SYSTEM_CHANNEL_ID=\n\n" ++
  "# (Optional) Enable developer mode (bot only responds to OWNER_ID). " ++
  "Can be True or False.\n" ++
  "DEV_MODE=False\n\n" ++
  "# (Optional) Calculator limits.\n" ++
  s!"{names.dice}={defaults.dice}\n" ++
  s!"{names.listedDice}={defaults.listedDice}\n" ++
  s!"{names.listedChars}={defaults.listedChars}\n" ++
  s!"{names.steps}={defaults.steps}\n"

/-- What happens when the settings file is looked for. -/
structure SettingsFileCheck where
  /-- The text of the file afterwards. -/
  content : String
  /-- Why the bot ends, if it does. -/
  exit : Option String
  /-- The log. -/
  log : List LogRecord
  /-- The lines for the user. -/
  printed : List String
  deriving DecidableEq

/-- Looks for the settings file in a directory; `existing` is its text if there is one. -/
def checkSettingsFile (directory : String) : Option String → SettingsFileCheck
  | some content => ⟨content, none, [], []⟩
  | none =>
    { content := settingsTemplate
      exit := some "Exiting: Bot token and prefix not configured."
      log := [⟨.warning, s!"'{settingsFileName}' not found. Creating a new one.", rootLogger⟩]
      printed := [
        s!"'{settingsFileName}' was not found.",
        s!"A new one has been created at: {directory}/{settingsFileName}",
        "",
        "Please open this file and add your bot's DISCORD_TOKEN and BOT_PREFIX.",
        "The OWNER_ID is optional but recommended."] }

end Reckoner
