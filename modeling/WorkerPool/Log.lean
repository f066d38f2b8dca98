/-!
# Log lines

A log line has a level, a text and named fields. What reaches a reader is decided where the lines
are shown; here every line is kept.
-/

namespace WorkerPool

/-- How much a log line matters, the most urgent first. -/
inductive LogLevel where
  | error
  | warn
  | info
  | debug
  | trace
deriving DecidableEq, Repr, Inhabited

namespace LogLevel

/-- The level's rank: the more urgent, the lower. -/
def rank : LogLevel → Nat
  | error => 0
  | warn => 1
  | info => 2
  | debug => 3
  | trace => 4

/-- The level as log lines show it. -/
def label : LogLevel → String
  | error => "ERROR"
  | warn => "WARN"
  | info => "INFO"
  | debug => "DEBUG"
  | trace => "TRACE"

end LogLevel

/-- The value of a field of a log line. -/
inductive LogValue where
  | text (value : String)
  | number (value : Nat)
  | rate (value : Float)

/-- One line of the log. -/
structure LogLine where
  level : LogLevel
  text : String
  fields : List (String × LogValue) := []

end WorkerPool
