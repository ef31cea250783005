import Reckoner.Log.Record

/-!
# Messages and commands that fail

Which messages the bot looks at, and what it answers when a command fails.
-/

namespace Reckoner

/-! ## Messages -/

/-- Who wrote a message. -/
structure Author where
  /-- Whether it is a bot. -/
  isBot : Bool
  /-- The id of the user. -/
  id : Int
  deriving DecidableEq, Repr

/-- Whether the bot looks at the messages of an author: never at those of bots, and in developer
mode only at those of the owner. -/
def listensTo (devMode : Bool) (owner : Option Int) (author : Author) : Bool :=
  !author.isBot && (!devMode || some author.id == owner)

/-- The positions of the messages that the bot looks at. -/
def heardMessages (devMode : Bool) (owner : Option Int) (authors : List Author) : List Nat :=
  (List.range authors.length).filter fun i => authors[i]?.any (listensTo devMode owner)

/-! ## Failed commands -/

/-- Why a command failed. -/
inductive CommandFault where
  /-- There is no such command. -/
  | unknownCommand
  /-- An argument is wrong or missing. -/
  | argument
  /-- The user may not use the command, with the reason. -/
  | forbidden (reason : String)
  /-- Something else. -/
  | unexpected
  deriving DecidableEq, Repr

/-- Something that is sent to a channel. -/
inductive Sent where
  /-- The help of a command. -/
  | help (command : String)
  /-- A text, which may vanish after so many seconds. -/
  | notice (text : String) (vanishesAfter : Option Nat)
  deriving DecidableEq, Repr

/-- The command that failed and where. -/
structure CommandContext where
  /-- The name of the command. -/
  command : String
  /-- The name of the user. -/
  author : String
  /-- The id of the channel. -/
  channel : Int
  deriving DecidableEq, Repr

/-- What is sent and logged about a failed command. -/
structure FaultReply where
  /-- What is sent. -/
  sent : List Sent
  /-- The log. -/
  log : List LogRecord
  deriving DecidableEq, Repr

/-- What the bot does about a failed command; `sendFails` tells whether texts cannot be sent. -/
def faultReply (context : CommandContext) (sendFails : Bool) : CommandFault → FaultReply
  | .unknownCommand => ⟨[], []⟩
  | .argument => ⟨[.help context.command], []⟩
  | .forbidden reason =>
    let complaint :=
      s!"User '{context.author}' failed check for command '{context.command}': {reason}"
    ⟨[.notice "Sorry, you don't have permission to use this command." (some 8)],
      [⟨.warning, complaint, rootLogger⟩]⟩
  | .unexpected =>
    let complaint := s!"Unhandled error in command '{context.command}'"
    let unsent := s!"Failed to send error message to channel {context.channel}"
    ⟨[.notice "Sorry, an unexpected error occurred. The issue has been logged." none],
      ⟨.error, complaint, rootLogger⟩ ::
        if sendFails then [⟨.error, unsent, rootLogger⟩] else []⟩

end Reckoner
