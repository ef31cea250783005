import Reckoner.Log.Record
import Reckoner.Number.Layout

/-!
# Log lines on the console

A record of a known level becomes one coloured line with its time, logger, level, message and place
in the code; a record of another level becomes its bare message.  The time is that of the universal
calendar, to the millisecond.
-/

namespace Reckoner

/-! ## Levels -/

/-- The name of a level number; a number without a name is named by itself. -/
def levelName (number : Int) : String :=
  match LogLevel.all.find? (·.number == number) with
  | some level => level.name
  | none => if number = 0 then "NOTSET" else s!"Level {number}"

/-- The escape that begins the colour of a level. -/
def LogLevel.colour : LogLevel → String
  | .debug | .info => "\x1b[38;20m"
  | .warning => "\x1b[33;20m"
  | .error => "\x1b[31;20m"
  | .critical => "\x1b[31;1m"

/-- The escape that ends a colour. -/
def endColour : String := "\x1b[0m"

/-! ## Time -/

/-- A day of the calendar. -/
structure CalendarDay where
  /-- The year. -/
  year : Int
  /-- The month, from one. -/
  month : Int
  /-- The day of the month, from one. -/
  day : Int
  deriving DecidableEq, Repr

/-- The day that lies so many days after 1 January 1970.  Years are counted from March in eras of
400 years, so that the leap day is the last day of a year. -/
def CalendarDay.ofEpochDay (days : Int) : CalendarDay :=
  let shifted := days + 719468
  let era := shifted.fdiv 146097
  let dayOfEra := shifted.fmod 146097
  let yearOfEra := (dayOfEra - dayOfEra / 1460 + dayOfEra / 36524 - dayOfEra / 146096) / 365
  let dayOfYear := dayOfEra - (365 * yearOfEra + yearOfEra / 4 - yearOfEra / 100)
  let marchMonth := (5 * dayOfYear + 2) / 153
  let day := dayOfYear - (153 * marchMonth + 2) / 5 + 1
  let month := if marchMonth < 10 then marchMonth + 3 else marchMonth - 9
  ⟨yearOfEra + era * 400 + (if month ≤ 2 then 1 else 0), month, day⟩

/-- A number of at least two digits. -/
def twoDigits (n : Int) : String := String.ofList (Number.paddedDigits 2 n.toNat)

/-- The date and the time of day that lie so many seconds after the beginning of 1970. -/
def timeText (seconds : Int) : String :=
  let day := CalendarDay.ofEpochDay (seconds.fdiv 86400)
  let second := seconds.fmod 86400
  let date := s!"{day.year}-{twoDigits day.month}-{twoDigits day.day}"
  s!"{date} {twoDigits (second / 3600)}:{twoDigits (second / 60 % 60)}:{twoDigits (second % 60)}"

/-- The milliseconds without their fraction, in three characters or more. -/
def millisecondText (milliseconds : Float) : String :=
  let whole := Number.truncate milliseconds
  if whole < 0 then "-" ++ String.ofList (Number.paddedDigits 2 whole.natAbs)
  else String.ofList (Number.paddedDigits 3 whole.natAbs)

/-! ## Lines -/

/-- Everything that a line on the console shows. -/
structure ConsoleRecord where
  /-- The name of the logger. -/
  logger : String
  /-- The number of the level. -/
  level : Int
  /-- The message. -/
  message : String
  /-- The seconds since the beginning of 1970. -/
  created : Float
  /-- The milliseconds of the time. -/
  milliseconds : Float
  /-- The path of the file that the record comes from. -/
  path : String
  /-- The line in the file. -/
  line : Int

/-- The last part of a path. -/
def fileName (path : String) : String :=
  String.ofList (path.toList.reverse.takeWhile (· != '/')).reverse

/-- The line of a record on the console. -/
def ConsoleRecord.text (r : ConsoleRecord) : String :=
  match LogLevel.all.find? (·.number == r.level) with
  | none => r.message
  | some level =>
    let time := timeText (Number.toRat r.created).floor
    let milliseconds := millisecondText r.milliseconds
    let place := s!"({fileName r.path}:{r.line})"
    let body := s!"{time},{milliseconds} - {r.logger} - {level.name} - {r.message} {place}"
    level.colour ++ body ++ endColour

end Reckoner
