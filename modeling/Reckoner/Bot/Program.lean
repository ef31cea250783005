import Reckoner.Bot.Console
import Reckoner.Bot.Extensions
import Reckoner.Bot.Lifecycle
import Reckoner.Log.Setup
import Reckoner.Reply.Command
import Reckoner.Settings.Template

/-!
# The bot from start to end

The bot has one extension, the calculator, with two commands.  Started, it checks its settings,
loads its extensions, connects, and then obeys the console and signals until it is closed.
-/

namespace Reckoner

/-! ## The bot -/

/-- The package of the extensions. -/
def extensionPackage : String := "cogs"

/-- The files in the directory of the extensions. -/
def extensionFiles : List String := ["__init__.py", "math.py"]

/-- The extensions that the bot finds. -/
def ownExtensions : List String := discover extensionPackage extensionFiles

/-- A command of the bot. -/
structure BotCommand where
  /-- The name. -/
  name : String
  /-- The other names, sorted. -/
  aliases : List String
  /-- What the command does. -/
  help : String
  deriving DecidableEq, Repr

/-- The commands of the calculator. -/
def calculatorCommands : List BotCommand := [
  ⟨"math", ["calc", "calculate"], "Evaluates a mathematical expression, dice included."⟩,
  ⟨"mathsteps", ["explain"], "Evaluates an expression and shows every step."⟩]

/-- What became of the listener at the console. -/
inductive Listener where
  | running
  | done
  | cancelled
  deriving DecidableEq, Repr

/-- The name of the state of a listener. -/
def Listener.name : Listener → String
  | .running => "running"
  | .done => "done"
  | .cancelled => "cancelled"

/-- The state of the bot. -/
structure Bot where
  /-- The loaded extensions. -/
  registry : List String := []
  /-- Whether the bot was closed. -/
  closed : Bool := false
  /-- The listener at the console, if there was one. -/
  listener : Option Listener := none
  deriving DecidableEq, Repr

namespace Bot

/-- How the extensions of the bot behave: an extension that is loaded cannot be loaded again, and
the calculator tells when it is ready. -/
def host : ExtensionHost :=
  { fails := fun registry request extension =>
      if request = .load then registry.contains extension else !registry.contains extension
    loading := fun _ => [calculatorReady] }

/-- The parts of the bot that are loaded. -/
def parts (b : Bot) : List String := b.registry.map fun _ => calculatorName

/-- The commands that the bot knows. -/
def commands (b : Bot) : List BotCommand :=
  if b.registry.isEmpty then [] else calculatorCommands

/-- Loads the extensions. -/
def loadAll (b : Bot) : Bot × List LogRecord :=
  let s := (ExtensionState.start b.registry).loadAll host ownExtensions
  ({ b with registry := s.registry }, s.log)

/-- Reloads the extensions. -/
def reloadAll (b : Bot) : Bot × List LogRecord :=
  let s := (ExtensionState.start b.registry).reloadAll host ownExtensions
  ({ b with registry := s.registry }, s.log)

/-- Closes the bot: the listener is cancelled, which it may log, and every extension is unloaded. -/
def close (b : Bot) (cancellation : List LogRecord) : Bot × List LogRecord :=
  let interrupted := b.listener == some .running
  ({ registry := []
     closed := true
     listener := if interrupted then some .cancelled else b.listener },
    ⟨.info, "Closing bot connection...", rootLogger⟩ ::
      (if interrupted then cancellation else []) ++
      [⟨.info, "Connection closed.", rootLogger⟩])

/-- Something that is done to the bot. -/
inductive Action where
  /-- Loads the extensions. -/
  | loadAll
  /-- Reloads the extensions. -/
  | reloadAll
  /-- Begins to listen at the console. -/
  | listen
  /-- Has listened to the end. -/
  | listened
  /-- Closes the bot. -/
  | close
  deriving DecidableEq, Repr

/-- Does something to the bot. -/
def act (b : Bot) : Action → Bot × List LogRecord
  | .loadAll => b.loadAll
  | .reloadAll => b.reloadAll
  | .listen => ({ b with listener := some .running }, [])
  | .listened => ({ b with listener := some .done }, [])
  | .close => b.close []

/-- Does one thing after the other and tells after each how the bot stands and what it logged. -/
def actAll (b : Bot) : List Action → List (Bot × List LogRecord)
  | [] => []
  | action :: rest =>
    let result := b.act action
    result :: actAll result.1 rest

end Bot

/-! ## The program -/

/-- What the console does while the program runs. -/
inductive Terminal where
  /-- There is no terminal. -/
  | none
  /-- A text is typed at once. -/
  | typed (text : Text)
  /-- Reading fails, with a reason. -/
  | broken (reason : String)
  deriving DecidableEq, Repr

/-- Everything that decides what the program does. -/
structure ProgramInput where
  /-- The directory of the settings file. -/
  directory : String
  /-- Whether the settings file exists. -/
  hasSettingsFile : Bool
  /-- The secret that the bot connects with. -/
  token : Option String
  /-- The command prefixes. -/
  prefixes : List Text
  /-- The user that owns the bot. -/
  ownerId : Option Int
  /-- The channel for announcements. -/
  systemChannelId : Option Int
  /-- The console. -/
  terminal : Terminal
  /-- The signal that ends the program, if one comes. -/
  signal : Option String
  deriving DecidableEq

/-- A line that the program writes. -/
inductive OutputLine where
  /-- A log record. -/
  | logged (r : LogRecord)
  /-- A line for the user. -/
  | printed (line : String)
  deriving DecidableEq

/-- What the program writes, and the message it ends with, if there is one. -/
structure ProgramOutput where
  /-- The message at the end. -/
  exit : Option String
  /-- The lines. -/
  lines : List OutputLine
  deriving DecidableEq

namespace ProgramInput

/-- An id in the settings, where zero counts as absent. -/
def isAbsent (id : Option Int) : Bool := id == none || id == some 0

/-- Announcements while the program runs: the bot knows no channel. -/
def systemChannel (p : ProgramInput) : SystemChannel := ⟨p.systemChannelId, none, none⟩

/-- The record of a listener that is cancelled. -/
def cancellation : LogRecord := ⟨.info, "Console input handler cancelled.", rootLogger⟩

/-- Closes the bot because of a signal. -/
def shutDownBot (p : ProgramInput) (signal : String) (b : Bot) : Bot × List LogRecord :=
  let (b, closing) := b.close [cancellation]
  (b, (shutDown signal p.systemChannel closing).log)

/-- Does what a command at the console asked for. -/
def obey (p : ProgramInput) (b : Bot) : ConsoleCommand → Bot × List LogRecord
  | .reload => b.reloadAll
  | .exit => p.shutDownBot "SIGINT" b

/-- Does what the commands asked for, one after the other. -/
def obeyAll (p : ProgramInput) (b : Bot) : List ConsoleCommand → Bot × List LogRecord
  | [] => (b, [])
  | command :: rest =>
    let (b, log) := p.obey b command
    let (b, more) := p.obeyAll b rest
    (b, log ++ more)

/-- What the bot hears at the console, and whether it goes on listening. -/
def listen (p : ProgramInput) : List ConsoleCommand × Listener :=
  match p.terminal with
  | .typed text =>
    let commands := consoleCommands (consoleLines p.signal.isNone [] text)
    (commands, if p.signal.isSome && !commands.contains .exit then .running else .done)
  | _ => ([], .done)

/-- The bot after it was connected: it reads the console, obeys, and is closed by a signal. -/
def serve (p : ProgramInput) (b : Bot) : Bot × List LogRecord :=
  let (commands, listener) := p.listen
  let b := { b with listener := if p.terminal = .none then none else some listener }
  let failure : List LogRecord :=
    match p.terminal with
    | .broken reason => [⟨.error, s!"Error in console input handler: {reason}", rootLogger⟩]
    | _ => []
  let (b, obeyed) := p.obeyAll b commands
  let (b, ended) :=
    match p.signal with
    | some signal => p.shutDownBot signal b
    | none => (b, [])
  (b, failure ++ commands.map ConsoleCommand.record ++ obeyed ++ ended)

/-- The log of a program whose settings are complete. -/
def runBot (p : ProgramInput) (token : String) : List LogRecord :=
  let (b, loading) := ({} : Bot).loadAll
  let (b, serving) := p.serve b
  let closing := if b.closed then [] else (b.close []).2
  ⟨.info, "Abacus is starting...", rootLogger⟩ :: loading ++
    ⟨.info, s!"start {token}", rootLogger⟩ :: serving ++ closing ++
    [⟨.info, "Abacus has shutdown properly!", rootLogger⟩]

/-- The prefixes in brackets. -/
def prefixListing (p : ProgramInput) : String :=
  "[" ++ ", ".intercalate (p.prefixes.map fun t => String.ofList t.quoted) ++ "]"

/-- What is logged about settings that may be missing. -/
def warnings (p : ProgramInput) : List LogRecord :=
  (if isAbsent p.ownerId then
    [⟨.warning, s!"OWNER_ID not found or invalid in '{settingsFileName}'. " ++
      "The bot will run, but developer mode will ignore everyone.", rootLogger⟩] else []) ++
  (if isAbsent p.systemChannelId then
    [⟨.warning, s!"SYSTEM_CHANNEL_ID not found in '{settingsFileName}'. " ++
      "The bot will run, but startup/shutdown messages will not be sent.", rootLogger⟩] else [])

/-- The end of a program that lacks its token or its prefixes. -/
def incomplete (p : ProgramInput) : ProgramOutput :=
  { exit := some "Critical error: DISCORD_TOKEN or BOT_PREFIX not configured."
    lines := [
      .logged ⟨.critical, s!"DISCORD_TOKEN or BOT_PREFIX is missing from '{settingsFileName}'. " ++
        "Both are required for the bot to run.", rootLogger⟩,
      .printed (s!"Error: DISCORD_TOKEN and BOT_PREFIX must be set in " ++
        s!"{p.directory}/{settingsFileName}.")] }

/-- Runs the program after logging is set up. -/
def runConfigured (p : ProgramInput) : ProgramOutput :=
  if !p.hasSettingsFile then
    let check := checkSettingsFile p.directory none
    ⟨check.exit, check.log.map .logged ++ check.printed.map .printed⟩
  else
    match p.token with
    | none => p.incomplete
    | some token =>
      if token.isEmpty || p.prefixes.isEmpty then p.incomplete
      else
        let ready : LogRecord :=
          ⟨.info, s!"Bot initialized with prefixes: {p.prefixListing}", rootLogger⟩
        ⟨none, (p.warnings ++ ready :: p.runBot token).map .logged⟩

/-- Runs the program. -/
def run (p : ProgramInput) : ProgramOutput :=
  let output := p.runConfigured
  { output with lines := .logged loggingConfigured :: output.lines }

end ProgramInput

end Reckoner
