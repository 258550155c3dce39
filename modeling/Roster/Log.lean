/-!
# Log records

What the library reports about its work besides results. Each record has a level,
which decides whether it is shown, and the name of the part that reports.
-/

namespace Roster

/-- The levels in rising order. -/
inductive LogLevel where
  | debug
  | info
  | warning
  | error
  deriving DecidableEq, Repr

namespace LogLevel

/-- The rank of a level. -/
def rank : LogLevel -> Nat
  | .debug => 0
  | .info => 1
  | .warning => 2
  | .error => 3

/-- The name of a level. -/
def name : LogLevel -> String
  | .debug => "DEBUG"
  | .info => "INFO"
  | .warning => "WARNING"
  | .error => "ERROR"

/-- All levels. -/
def all : List LogLevel := [.debug, .info, .warning, .error]

/-- The level with a name. -/
def ofName? (name : String) : Option LogLevel :=
  all.find? fun level => level.name == name

end LogLevel

/-- A report of some part. -/
structure LogRecord where
  level : LogLevel
  reporter : String
  message : String
  deriving DecidableEq, Repr

namespace LogRecord

/-- Whether a record is shown from a level on. -/
def isShown (threshold : LogLevel) (record : LogRecord) : Bool :=
  threshold.rank <= record.level.rank

/-- The line of a record in the log on the terminal. -/
def line (record : LogRecord) : String :=
  s!"{record.level.name}:{record.reporter}:{record.message}\n"

end LogRecord

end Roster
