import Reckoner.Log.Record

/-!
# Starting up and shutting down

The bot logs as whom it is connected and to which guilds, and announces its start and its end in
the system channel.  A signal closes the connection after the announcement.
-/

namespace Reckoner

/-! ## Announcements -/

/-- What the bot finds under the id of a channel. -/
inductive Channel where
  /-- A text channel. -/
  | text
  /-- A channel of another kind. -/
  | other
  deriving DecidableEq, Repr

/-- What the bot asks its connection for. -/
inductive BotCall where
  /-- Looks a channel up. -/
  | getChannel (id : Int)
  /-- Closes the connection. -/
  | close
  deriving DecidableEq, Repr

/-- A call in words. -/
def BotCall.text : BotCall → String
  | .getChannel id => s!"get_channel {id}"
  | .close => "close"

/-- What the bot does on an event. -/
structure BotActions where
  /-- The calls, the first one first. -/
  calls : List BotCall := []
  /-- The titles that are announced. -/
  sent : List String := []
  /-- The log. -/
  log : List LogRecord := []
  deriving DecidableEq

namespace BotActions

/-- One thing after the other. -/
def andThen (a b : BotActions) : BotActions :=
  ⟨a.calls ++ b.calls, a.sent ++ b.sent, a.log ++ b.log⟩

/-- Logs a message. -/
def logging (level : LogLevel) (message : String) : BotActions :=
  { log := [⟨level, message, rootLogger⟩] }

end BotActions

/-- Where announcements go. -/
structure SystemChannel where
  /-- The id in the settings; zero counts as absent. -/
  id : Option Int
  /-- What is found under the id. -/
  channel : Option Channel
  /-- Why nothing can be sent there, if so. -/
  refusal : Option String
  deriving DecidableEq, Repr

/-- Announces a title in the system channel. -/
def announce (system : SystemChannel) (title : String) : BotActions :=
  match system.id with
  | none => {}
  | some 0 => {}
  | some id =>
    let looked : BotActions := { calls := [.getChannel id] }
    looked.andThen <|
      match system.channel with
      | some .text =>
        match system.refusal with
        | none =>
          { sent := [title]
            log := [⟨.info, s!"Sent '{title}' to channel ID: {id}", rootLogger⟩] }
        | some reason =>
          .logging .error s!"Failed to send message to channel {id}: {reason}"
      | _ =>
        .logging .warning
          s!"System channel ID {id} is not a valid text channel or could not be found."

/-! ## Events -/

/-- A user or a guild. -/
structure Named where
  /-- The name. -/
  name : String
  /-- The id. -/
  id : Int
  deriving DecidableEq, Repr

/-- What the bot does when it is connected. -/
def startUp (user : Option Named) (guilds : List Named) (system : SystemChannel) : BotActions :=
  let identity : BotActions :=
    match user with
    | some user => .logging .info s!"Logged in as {user.name} (ID: {user.id})"
    | none => .logging .error "Bot user information not available on ready."
  let connected : LogRecord := ⟨.info, "Connected to the following guilds:", rootLogger⟩
  let lines := guilds.map fun guild =>
    (⟨.info, s!"- {guild.name} (ID: {guild.id})", rootLogger⟩ : LogRecord)
  (identity.andThen { log := connected :: lines }).andThen
    (announce system "Abacus is online and ready to count!")

/-- What the bot does on a signal; `closing` is what the closing connection logs. -/
def shutDown (signal : String) (system : SystemChannel) (closing : List LogRecord) :
    BotActions :=
  let received : BotActions := .logging .info s!"Received exit signal {signal}..."
  let announced := announce system "Abacus is shutting down. Goodnight!"
  let closed : BotActions :=
    { calls := [.close]
      log := ⟨.info, "Closing connections...", rootLogger⟩ :: closing }
  let graceful : BotActions :=
    .logging .info "Discord connection has been shut down gracefully."
  ((received.andThen announced).andThen closed).andThen graceful

end Reckoner
