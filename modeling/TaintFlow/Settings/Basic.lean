import TaintFlow.Failure
import TaintFlow.Report.Format
import TaintFlow.Settings.Layers
import TaintFlow.Settings.Weak

/-!
# Settings

What a user can set, the defaults, and the conditions that the values must meet.

## Main definitions

* `Settings` and its sections.
* `Settings.defaults` — the default layer.
* `Settings.ofLayers` — the settings that the layers give.
* `Settings.validate` — the conditions.
-/

namespace TaintFlow

/-- The colours of the levels of log entries. -/
structure Colors where
  debug : String := ""
  info : String := ""
  warn : String := ""
  error : String := ""
  dpanic : String := ""
  panic : String := ""
  fatal : String := ""
  deriving DecidableEq, Repr

/-- How the program logs. -/
structure LogSettings where
  level : String := ""
  format : String := ""
  addSource : Bool := false
  serviceName : String := ""
  logFile : String := ""
  maxSize : Int := 0
  maxBackups : Int := 0
  maxAge : Int := 0
  compress : Bool := false
  colors : Colors := {}
  deriving DecidableEq, Repr

/-- How the analysis works. -/
structure AnalysisSettings where
  maxHops : Int := 0
  timeout : Duration := 0
  concurrency : Int := 0
  /-- Whether sources behind an authenticated endpoint count one level lower. -/
  weightAuth : Bool := false
  deriving DecidableEq, Repr

/-- Where sources and sinks come from. -/
structure DiscoverySettings where
  /-- The file that replaces the built-in rules, if not empty. -/
  rulesFile : String := ""
  /-- The list that replaces the built-in sanitizers, if not empty. -/
  sanitizers : List String := []
  prefixes : List String := []
  deriving DecidableEq, Repr

/-- Where the report goes. -/
structure OutputSettings where
  format : String := ""
  path : String := ""
  deriving DecidableEq, Repr

/-- What a user can set. -/
structure Settings where
  logger : LogSettings := {}
  database : String := ""
  analysis : AnalysisSettings := {}
  discovery : DiscoverySettings := {}
  output : OutputSettings := {}
  deriving DecidableEq, Repr

namespace Settings

/-- The default layer. -/
def defaults : Json :=
  .obj [
    ("logger", .obj [("level", .str "info"), ("format", .str "console"), ("add_source", .bool false),
      ("service_name", .str "scalpel-taint"), ("log_file", .str ""), ("max_size", .ofInt 100),
      ("max_backups", .ofInt 5), ("max_age", .ofInt 30), ("compress", .bool true)]),
    ("analysis", .obj [("max_hops", .ofInt 5), ("timeout", .str "5m"), ("concurrency", .ofInt 4),
      ("authenticated_endpoint_weighting", .bool false)]),
    ("discovery", .obj [("rules_file", .str ""), ("sanitizers", .arr []),
      ("request_prefixes", .arr [])]),
    ("output", .obj [("format", .str "json"), ("path", .str "-")])]

/-- The layers of a run. -/
def layers (flags : List (String × Json)) (env : List (String × String)) (file : Json) : Layers where
  flags
  env
  envMark := "SCALPEL"
  envOnly := ["database.url"]
  file
  defaults

/-- The names of the colours of log levels. -/
def colorNames : List (List String) :=
  ["debug", "info", "warn", "error", "dpanic", "panic", "fatal"].map fun c => ["logger", "colors", c]

/-- The environment variables that can say something about the settings. -/
def variableNames : List String :=
  let paths := Layers.leaves [] defaults ++ [["database", "url"]] ++ colorNames
  let fronts := paths.flatMap fun p => (List.range p.length).map fun i => p.take (i + 1)
  fronts.eraseDups.map fun p => (layers [] [] .null).variableName p

/-- The colours that an object gives. -/
def colors? (v : Json) : Option Colors := do
  let o ← Weak.object? v
  return { debug := ← Weak.text? (o.get "debug"), info := ← Weak.text? (o.get "info"),
           warn := ← Weak.text? (o.get "warn"), error := ← Weak.text? (o.get "error"),
           dpanic := ← Weak.text? (o.get "dpanic"), panic := ← Weak.text? (o.get "panic"),
           fatal := ← Weak.text? (o.get "fatal") }

/-- The log settings that an object gives. -/
def logger? (v : Json) : Option LogSettings := do
  let o ← Weak.object? v
  return { level := ← Weak.text? (o.get "level"), format := ← Weak.text? (o.get "format"),
           addSource := ← Weak.bool? (o.get "add_source"),
           serviceName := ← Weak.text? (o.get "service_name"),
           logFile := ← Weak.text? (o.get "log_file"), maxSize := ← Weak.int? (o.get "max_size"),
           maxBackups := ← Weak.int? (o.get "max_backups"),
           maxAge := ← Weak.int? (o.get "max_age"), compress := ← Weak.bool? (o.get "compress"),
           colors := ← colors? (o.get "colors") }

/-- The analysis settings that an object gives. -/
def analysis? (v : Json) : Option AnalysisSettings := do
  let o ← Weak.object? v
  return { maxHops := ← Weak.int? (o.get "max_hops"),
           timeout := ← Weak.duration? (o.get "timeout"),
           concurrency := ← Weak.int? (o.get "concurrency"),
           weightAuth := ← Weak.bool? (o.get "authenticated_endpoint_weighting") }

/-- The discovery settings that an object gives. -/
def discovery? (v : Json) : Option DiscoverySettings := do
  let o ← Weak.object? v
  return { rulesFile := ← Weak.text? (o.get "rules_file"),
           sanitizers := ← Weak.list? Weak.text? (o.get "sanitizers"),
           prefixes := ← Weak.list? Weak.text? (o.get "request_prefixes") }

/-- The output settings that an object gives. -/
def output? (v : Json) : Option OutputSettings := do
  let o ← Weak.object? v
  return { format := ← Weak.text? (o.get "format"), path := ← Weak.text? (o.get "path") }

/-- The settings that an object gives. -/
def ofJson? (v : Json) : Option Settings := do
  let database ← Weak.object? (v.get "database")
  return { logger := ← logger? (v.get "logger"), database := ← Weak.text? (database.get "url"),
           analysis := ← analysis? (v.get "analysis"),
           discovery := ← discovery? (v.get "discovery"), output := ← output? (v.get "output") }

/-- The conditions on the analysis settings. -/
def AnalysisSettings.problem? (a : AnalysisSettings) : Option String :=
  if a.maxHops < 1 then some "analysis.max_hops must be at least 1"
  else if a.concurrency ≤ 0 then some "analysis.concurrency must be a positive integer"
  else if a.timeout < 0 then some "analysis.timeout must not be negative"
  else none

/-- The conditions on the output settings. -/
def OutputSettings.problem? (o : OutputSettings) : Option String :=
  if (Report.Format.ofName? o.format).isSome then none
  else some ("output.format must be one of json, sarif or text, got " ++ Text.quoted o.format)

/-- The conditions that settings must meet. -/
def validate (s : Settings) : Except Failure Unit :=
  match AnalysisSettings.problem? s.analysis, OutputSettings.problem? s.output with
  | some p, _ => .error (.during "analysis configuration invalid" (.because p))
  | none, some p => .error (.during "output configuration invalid" (.because p))
  | none, none => .ok ()

/-- The valid settings that the layers give. -/
def ofLayers (l : Layers) : Except Failure Settings :=
  match ofJson? l.merged with
  | none => failBecause "error unmarshaling config"
  | some s => do
    during "invalid configuration" s.validate
    return s

/-- The settings without any other layer. -/
def standard : Settings :=
  (ofJson? defaults).getD {}

end Settings

end TaintFlow
