/-!
# Log records

What the system reports about itself while it runs.
-/

namespace RoundRobin

/-- How important a record is. -/
inductive Severity where
  | trace
  | debug
  | info
  | warn
  deriving DecidableEq, Repr

/-- The name of a severity in capitals. -/
def Severity.name : Severity → String
  | trace => "TRACE"
  | debug => "DEBUG"
  | info => "INFO"
  | warn => "WARN"

/-- Which part of the system a record comes from. -/
inductive Source where
  | scheduler
  | timer
  | firmware
  deriving DecidableEq, Repr

/-- The target under which the records of a source are written. -/
def Source.target : Source → String
  | scheduler => "alarmos::scheduler"
  | timer => "alarmos::timer"
  | firmware => "alarmos::firmware"

/-- One log record. -/
structure Record where
  severity : Severity
  source : Source
  text : String
  deriving DecidableEq, Repr

end RoundRobin
