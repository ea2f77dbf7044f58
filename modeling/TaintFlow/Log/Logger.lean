import TaintFlow.Log.Entry

/-!
# Loggers

A program has one logger.  It is set up once, and writes to a console and, when the settings name
one, to a file.

## Main definitions

* `Log.Logger` — a logger; `Logger.child` names a part of the program.
* `Log.Logger.line?`, `Log.Logger.record` — what a logger writes to the console and to the file.
* `Log.setUp`, `Log.Held.logger` — the logger of the program.
* `Log.syncMessage` — what is said about a console that cannot be flushed.
-/

namespace TaintFlow.Log

/-- A logger. -/
structure Logger where
  level : Level
  name : String := ""
  /-- Whether entries are written for a console. -/
  plain : Bool := false
  colors : Colors := {}
  /-- The file that entries are written to as well, if not empty. -/
  file : String := ""
  deriving DecidableEq, Repr

namespace Logger

/-- A name below another one. -/
def joinNames (parent name : String) : String :=
  Text.join "." ([parent, name].filter (!·.isEmpty))

/-- The logger that settings describe.  A path that cannot be expanded is taken as it is. -/
def ofSettings (home : String) (s : LogSettings) : Logger where
  level := .ofName s.level
  name := s.serviceName
  plain := s.format == "console"
  colors := s.colors
  file := ((Disk.expandHome home s.logFile).toOption).getD s.logFile

/-- The logger of a part of the program. -/
def child (l : Logger) (name : String) : Logger :=
  { l with name := joinNames l.name name }

/-- An entry of a logger. -/
def entry (l : Logger) (time : String) (level : Level) (message : String)
    (fields : List (String × String)) : Entry :=
  { time, level, logger := l.name, message, fields }

/-- The line of an entry on the console, if the logger writes it. -/
def line? (l : Logger) (e : Entry) : Option String :=
  if l.level.enables e.level then some (if l.plain then e.console l.colors else e.json) else none

/-- The text of entries in the file. -/
def record (l : Logger) (entries : List Entry) : String :=
  String.join ((entries.filter fun e => l.level.enables e.level).map fun e => e.json ++ "\n")

end Logger

/-- The logger of a program, once it has been set up. -/
abbrev Held := Option Logger

/-- Sets up the logger of a program.  Only the first time counts. -/
def setUp (l : Logger) : Held → Held
  | none => some l
  | some first => some first

/-- The name of the logger that stands in before any has been set up. -/
def fallbackName : String := "fallback"

/-- The logger of a program.  Before any has been set up there is a stand-in, and asking for it
gives a warning. -/
def Held.logger : Held → Logger × Bool
  | some l => (l, false)
  | none => ({ level := .debug, name := fallbackName, plain := true }, true)

/-- Parts of messages that only say that a console cannot be flushed. -/
def harmless : List String :=
  ["/dev/stderr", "/dev/stdout", "invalid argument", "inappropriate ioctl",
   "operation not supported"]

/-- What is said about a failure to flush the log. -/
def syncMessage (problem : String) : String :=
  if harmless.any (Text.contains problem) then ""
  else "Error: failed to sync logger: " ++ problem ++ "\n"

end TaintFlow.Log
