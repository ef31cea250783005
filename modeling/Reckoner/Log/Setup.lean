import Reckoner.Log.Format

/-!
# Which records are written

The level of the root logger is set by name.  Two noisy loggers and those below them have a level
of their own; every other logger uses that of the root.  A record is written when its level reaches
that of its logger.
-/

namespace Reckoner

/-- The capital of a letter whose capital is an ASCII letter. -/
def capitalLetter (c : Char) : Char :=
  if c = 'ı' then 'I' else if c = 'ſ' then 'S' else c.toUpper

/-- The names of levels and their numbers. -/
def levelNumbers : List (String × Int) :=
  [("DEBUG", 10), ("INFO", 20), ("WARNING", 30), ("WARN", 30), ("ERROR", 40), ("CRITICAL", 50),
    ("FATAL", 50), ("NOTSET", 0)]

/-- The level that is named, in capital or small letters; INFO if the name is unknown. -/
def levelNumber (name : String) : Int :=
  (levelNumbers.lookup (String.ofList (name.toList.map capitalLetter))).getD LogLevel.info.number

/-- The loggers with a level of their own. -/
def noisyLoggers : List String := ["discord", "websockets"]

/-- The level of the noisy loggers. -/
def noisyLevel : Int := LogLevel.warning.number

/-- Whether a logger is another one or below it. -/
def isUnder (logger ancestor : String) : Bool :=
  logger == ancestor || (ancestor.toList ++ ['.']).isPrefixOf logger.toList

/-- The level that a record of a logger has to reach. -/
def thresholdOf (root : Int) (logger : String) : Int :=
  if noisyLoggers.any (isUnder logger) then noisyLevel else root

/-- The name of a logger in a record; the root logger has two. -/
def loggerName (logger : String) : String := if logger.isEmpty then rootLogger else logger

/-- A record of any level. -/
structure LevelledRecord where
  /-- The name of the logger. -/
  logger : String
  /-- The number of the level. -/
  level : Int
  /-- The message. -/
  message : String
  deriving DecidableEq, Repr

/-- Whether a record is written.  Levels that are not positive are never written. -/
def LevelledRecord.isWritten (root : Int) (r : LevelledRecord) : Bool :=
  0 < r.level && thresholdOf root (loggerName r.logger) ≤ r.level

/-- The record that tells that logging is set up. -/
def loggingConfigured : LogRecord :=
  ⟨.info, "Logging configured with console and rotating file handlers.", rootLogger⟩

/-- How logging is set up. -/
structure LogSetup where
  /-- The level of the root logger. -/
  level : Int
  /-- Whether the log goes to a file too. -/
  toFile : Bool
  deriving DecidableEq, Repr

namespace LogSetup

/-- The kinds of handlers that write the log. -/
def handlers (s : LogSetup) : List String :=
  "StreamHandler" :: if s.toFile then ["AsyncFileHandler"] else []

/-- The records that are written when logging is set up and the given records follow. -/
def written (s : LogSetup) (records : List LevelledRecord) : List LevelledRecord :=
  let first : LevelledRecord :=
    ⟨loggingConfigured.logger, loggingConfigured.level.number, loggingConfigured.message⟩
  (first :: records).filter (·.isWritten s.level)

end LogSetup

end Reckoner
