import TaintFlow.Json.Writer
import TaintFlow.Log.Level

/-!
# Log entries

An entry is written as one line, either for a console or as a JSON object.

## Main definitions

* `Log.Entry` — an entry.
* `Log.Entry.console` — parts between tabs, the level in colour, the fields last.
* `Log.Entry.json` — an object with the fields after the members of every entry.
-/

namespace TaintFlow.Log

/-- An entry of a log. -/
structure Entry where
  time : String
  level : Level
  logger : String
  message : String
  fields : List (String × String) := []
  deriving DecidableEq, Repr

/-- The code that switches a terminal to a colour. -/
def colorCode? : String → Option String
  | "red" => some "\x1b[31m"
  | "green" => some "\x1b[32m"
  | "yellow" => some "\x1b[33m"
  | "blue" => some "\x1b[34m"
  | "magenta" => some "\x1b[35m"
  | "cyan" => some "\x1b[36m"
  | "white" => some "\x1b[37m"
  | _ => none

/-- The code that switches a terminal back. -/
def plainCode : String := "\x1b[0m"

/-- A level in its colour, if the colour is a known one. -/
def Level.colored (colors : Colors) (l : Level) : String :=
  match colorCode? (l.color colors) with
  | some code => code ++ l.label ++ plainCode
  | none => l.label

namespace Entry

/-- The fields of an entry in braces. -/
def fieldsText (fields : List (String × String)) : String :=
  "\x7b" ++ Text.join ", " (fields.map fun (k, v) =>
    Json.Style.plain.quote k ++ ": " ++ Json.Style.plain.quote v) ++ "\x7d"

/-- An entry for a console. -/
def console (colors : Colors) (e : Entry) : String :=
  Text.join "\t" ([e.time, e.level.colored colors]
    ++ (if e.logger.isEmpty then [] else [e.logger ++ "."]) ++ [e.message]
    ++ (if e.fields.isEmpty then [] else [fieldsText e.fields]))

/-- An entry as a JSON object. -/
def json (e : Entry) : String :=
  (Json.obj ([("level", .str e.level.label), ("ts", .str e.time)]
    ++ Json.opt (!e.logger.isEmpty) "logger" (.str e.logger) ++ [("msg", .str e.message)]
    ++ e.fields.map fun (k, v) => (k, .str v))).compact .plain

end Entry

end TaintFlow.Log
