import Reckoner.Bot.Lifecycle
import Reckoner.Text.Blank
import Reckoner.Text.Lowercase

/-!
# The console

Two commands can be typed while the bot runs: one reloads the extensions and goes on, one shuts the
bot down, and nothing is read after it.  Blanks around a command and letter case do not matter.
-/

namespace Reckoner

/-- A command on the console. -/
inductive ConsoleCommand where
  /-- Reloads the extensions. -/
  | reload
  /-- Shuts the bot down. -/
  | exit
  deriving DecidableEq, Repr

namespace ConsoleCommand

/-- The command on a line. -/
def ofLine? (line : Text) : Option ConsoleCommand :=
  let word := line.trim.lowercase
  if word == "exit".toList then some .exit
  else if word == "reload".toList then some .reload
  else none

/-- What is logged when a command is read. -/
def record : ConsoleCommand → LogRecord
  | exit =>
    ⟨.info, "'exit' command received from console. Initiating shutdown.", rootLogger⟩
  | reload => ⟨.info, "'reload' command received from console. Reloading cogs...", rootLogger⟩

/-- What a command asks for. -/
def request : ConsoleCommand → String
  | exit => "close"
  | reload => "reload"

end ConsoleCommand

/-- What the bot does about one line. -/
structure ConsoleReaction where
  /-- Whether the listener stops. -/
  stops : Bool
  /-- What is asked for. -/
  requests : List String
  /-- The log. -/
  log : List LogRecord
  deriving DecidableEq, Repr

/-- What the bot does about one line, as long as closing and reloading log nothing themselves. -/
def ConsoleReaction.ofLine (system : SystemChannel) (line : Text) : ConsoleReaction :=
  match ConsoleCommand.ofLine? line with
  | none => ⟨false, [], []⟩
  | some .reload => ⟨false, [ConsoleCommand.reload.request], [ConsoleCommand.reload.record]⟩
  | some .exit =>
    ⟨true, [ConsoleCommand.exit.request],
      ConsoleCommand.exit.record :: (shutDown "SIGINT" system []).log⟩

/-- The lines of what is typed, each ending at a line feed; `line` is the reversed beginning of the
first one.  What follows the last line feed is a line only at the end of the input. -/
def consoleLines (atEnd : Bool) (line : Text) : Text → List Text
  | [] => if atEnd && !line.isEmpty then [line.reverse] else []
  | c :: rest =>
    if c = '\n' then line.reverse :: consoleLines atEnd [] rest
    else consoleLines atEnd (c :: line) rest

/-- The commands on lines up to the first that ends the listening. -/
def consoleCommands : List Text → List ConsoleCommand
  | [] => []
  | line :: rest =>
    match ConsoleCommand.ofLine? line with
    | some .exit => [.exit]
    | some .reload => .reload :: consoleCommands rest
    | none => consoleCommands rest

end Reckoner
