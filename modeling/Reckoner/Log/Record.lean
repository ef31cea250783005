/-!
# Log records

What the bot logs: a level, the logger it goes through, and a message.
-/

namespace Reckoner

/-- The levels of the records that the bot writes. -/
inductive LogLevel where
  | debug
  | info
  | warning
  | error
  | critical
  deriving DecidableEq, Repr

namespace LogLevel

/-- The levels from the least to the most severe. -/
def all : List LogLevel := [debug, info, warning, error, critical]

/-- The number of a level. -/
def number : LogLevel → Int
  | debug => 10
  | info => 20
  | warning => 30
  | error => 40
  | critical => 50

/-- The name of a level. -/
def name : LogLevel → String
  | debug => "DEBUG"
  | info => "INFO"
  | warning => "WARNING"
  | error => "ERROR"
  | critical => "CRITICAL"

end LogLevel

/-- The name of the logger above all others. -/
def rootLogger : String := "root"

/-- A log record. -/
structure LogRecord where
  /-- The level. -/
  level : LogLevel
  /-- The message. -/
  message : String
  /-- The name of the logger. -/
  logger : String := rootLogger
  deriving DecidableEq, Repr

/-- The level and the message of a record. -/
def LogRecord.line (r : LogRecord) : String := s!"{r.level.name} {r.message}"

end Reckoner
