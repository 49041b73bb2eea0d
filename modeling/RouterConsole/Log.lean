/-!
# Log records

What the parts of the program report about their work, beside their output. A record names its
level and the part that wrote it; which levels are shown is decided where the program starts.
-/
namespace RouterConsole

inductive LogLevel where
  | debug
  | info
  | warning
  | error
  deriving DecidableEq, Repr

/-- The rank of a level; a higher one is more severe. -/
def LogLevel.severity : LogLevel → Nat
  | .debug => 0
  | .info => 1
  | .warning => 2
  | .error => 3

def LogLevel.name : LogLevel → String
  | .debug => "DEBUG"
  | .info => "INFO"
  | .warning => "WARNING"
  | .error => "ERROR"

inductive LogSource where
  | startup
  | loading
  | dispatch
  | session
  deriving DecidableEq, Repr

structure LogRecord where
  level : LogLevel
  source : LogSource
  message : String
  deriving DecidableEq, Repr

abbrev Log := List LogRecord

def Log.atLeast (level : LogLevel) (log : Log) : Log :=
  log.filter fun r => level.severity ≤ r.level.severity

end RouterConsole
