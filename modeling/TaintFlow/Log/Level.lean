import TaintFlow.Settings.Basic
import TaintFlow.Text.Case

/-!
# Levels of log entries

Seven levels, from the least to the most severe.  A logger writes the entries at its own level and
above.
-/

namespace TaintFlow.Log

/-- The levels of log entries. -/
inductive Level where
  | debug
  | info
  | warn
  | error
  | dpanic
  | panic
  | fatal
  deriving DecidableEq, Repr, Inhabited

namespace Level

/-- All levels, the least severe first. -/
def all : List Level := [.debug, .info, .warn, .error, .dpanic, .panic, .fatal]

/-- The name of a level. -/
def name : Level → String
  | .debug => "debug"
  | .info => "info"
  | .warn => "warn"
  | .error => "error"
  | .dpanic => "dpanic"
  | .panic => "panic"
  | .fatal => "fatal"

/-- The name of a level as entries show it. -/
def label : Level → String
  | .debug => "DEBUG"
  | .info => "INFO"
  | .warn => "WARN"
  | .error => "ERROR"
  | .dpanic => "DPANIC"
  | .panic => "PANIC"
  | .fatal => "FATAL"

/-- The place of a level in the order of severity. -/
def rank : Level → Nat
  | .debug => 0
  | .info => 1
  | .warn => 2
  | .error => 3
  | .dpanic => 4
  | .panic => 5
  | .fatal => 6

/-- The level with a given name in any case; every other name stands for the level of plain
information. -/
def ofName (s : String) : Level :=
  (all.find? (fun l => l.name == Text.lower s)).getD .info

/-- Whether a logger at a level writes an entry at another one. -/
def enables (own entry : Level) : Bool :=
  own.rank ≤ entry.rank

/-- The colour that the settings give to a level. -/
def color (c : Colors) : Level → String
  | .debug => c.debug
  | .info => c.info
  | .warn => c.warn
  | .error => c.error
  | .dpanic => c.dpanic
  | .panic => c.panic
  | .fatal => c.fatal

end Level

end TaintFlow.Log
