import TaintFlow.Finding
import TaintFlow.Json.Basic

/-!
# Reports as JSON

The members of findings, diagnostics and reports in the order in which they are written.  Members
that say nothing (an empty text, a zero, false) are left out where marked so.
-/

namespace TaintFlow

/-- A text that is left out when it is empty. -/
def Json.optText (key s : String) : List (String × Json) :=
  opt (!s.isEmpty) key (.str s)

/-- A number that is left out when it is zero. -/
def Json.optInt (key : String) (n : Int) : List (String × Json) :=
  opt (n != 0) key (ofInt n)

open Json (ofInt opt optText optInt)

/-- A step of a path. -/
def PathStep.toJson (s : PathStep) : Json :=
  .obj ([("kind", .str s.kind.name), ("file", .str s.file), ("line", ofInt s.line)]
    ++ optText "function" s.function ++ optText "detail" s.detail)

/-- An end of a finding. -/
def Endpoint.toJson (e : Endpoint) : Json :=
  .obj ([("file", .str e.location.file), ("line", ofInt e.location.line)]
    ++ optInt "column" e.location.column ++ [("category", .str e.category)]
    ++ optText "name" e.name ++ [("rule", .str e.rule), ("risk", .str e.risk.name)])

/-- A list, or `null` when it is missing. -/
def listJson {α : Type} (f : α → Json) : Option (List α) → Json
  | some l => .arr (l.map f)
  | none => .null

/-- A finding. -/
def Finding.toJson (f : Finding) : Json :=
  .obj ([("id", .str f.id), ("severity", .str f.severity.name), ("category", .str f.category),
    ("source", f.source.toJson), ("sink", f.sink.toJson), ("path", listJson PathStep.toJson f.path),
    ("hop_depth", ofInt f.hopDepth)] ++ opt f.truncated "truncated" (.bool true))

/-- A diagnostic. -/
def Diagnostic.toJson (d : Diagnostic) : Json :=
  .obj ([("kind", .str d.kind.name), ("message", .str d.message)] ++ optText "file" d.file
    ++ optText "function" d.function ++ optInt "line" d.line)

/-- The statistics of a run. -/
def Stats.toJson (s : Stats) : Json :=
  .obj [("sources", ofInt s.sources), ("sinks", ofInt s.sinks), ("functions", ofInt s.functions),
    ("unanalyzable_functions", ofInt s.unanalyzable), ("rounds", ofInt s.rounds),
    ("duration_ns", ofInt s.duration)]

/-- A report. -/
def Report.toJson (r : Report) : Json :=
  .obj [("run_id", .str r.runId), ("findings", listJson Finding.toJson r.findings),
    ("diagnostics", listJson Diagnostic.toJson r.diagnostics), ("incomplete", .bool r.incomplete),
    ("stats", r.stats.toJson)]

end TaintFlow
