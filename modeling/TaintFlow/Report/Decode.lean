import TaintFlow.Finding
import TaintFlow.Json.Basic
import TaintFlow.Number.Numeral

/-!
# Reports from JSON

Reads back what `Report.toJson` writes.  A member that is missing reads as an empty text, zero or
false, and a missing list stays missing.
-/

namespace TaintFlow

/-- The whole number of a value; zero for what is no number. -/
def Json.toInt : Json → Int
  | .num t => (Numeral.decimal t).getD 0
  | _ => 0

/-- The items of a list, if there is one. -/
def Json.list? : Json → Option (List Json)
  | .arr l => some l
  | _ => none

/-- A step of a path. -/
def PathStep.ofJson (v : Json) : PathStep where
  kind := .ofName (v.get "kind").text
  file := (v.get "file").text
  line := (v.get "line").toInt
  function := (v.get "function").text
  detail := (v.get "detail").text

/-- An end of a finding. -/
def Endpoint.ofJson (v : Json) : Endpoint where
  location := ⟨(v.get "file").text, (v.get "line").toInt, (v.get "column").toInt⟩
  category := (v.get "category").text
  name := (v.get "name").text
  rule := (v.get "rule").text
  risk := .ofName (v.get "risk").text

/-- A finding. -/
def Finding.ofJson (v : Json) : Finding where
  id := (v.get "id").text
  severity := .ofName (v.get "severity").text
  category := (v.get "category").text
  source := .ofJson (v.get "source")
  sink := .ofJson (v.get "sink")
  path := (v.get "path").list?.map (·.map PathStep.ofJson)
  hopDepth := (v.get "hop_depth").toInt
  truncated := (v.get "truncated").truth

/-- A diagnostic. -/
def Diagnostic.ofJson (v : Json) : Diagnostic where
  kind := .ofName (v.get "kind").text
  message := (v.get "message").text
  file := (v.get "file").text
  function := (v.get "function").text
  line := (v.get "line").toInt

/-- The statistics of a run. -/
def Stats.ofJson (v : Json) : Stats where
  sources := (v.get "sources").toInt
  sinks := (v.get "sinks").toInt
  functions := (v.get "functions").toInt
  unanalyzable := (v.get "unanalyzable_functions").toInt
  rounds := (v.get "rounds").toInt
  duration := (v.get "duration_ns").toInt

/-- A report. -/
def Report.ofJson (v : Json) : Report where
  runId := (v.get "run_id").text
  findings := (v.get "findings").list?.map (·.map Finding.ofJson)
  diagnostics := (v.get "diagnostics").list?.map (·.map Diagnostic.ofJson)
  incomplete := (v.get "incomplete").truth
  stats := .ofJson (v.get "stats")

end TaintFlow
