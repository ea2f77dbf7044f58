import TaintFlow.Finding
import TaintFlow.Number.Duration
import TaintFlow.Text.Blank
import TaintFlow.Text.Case

/-!
# Reports as plain text

A summary for people: one block per finding, then the diagnostics.
-/

namespace TaintFlow

/-- A text in front of another one, both left out when the other one is empty. -/
def Report.unlessEmpty (before s after : String) : String :=
  if s.isEmpty then "" else before ++ s ++ after

/-- The line of a step. -/
def PathStep.stepLine (s : PathStep) : String :=
  "      " ++ Text.padRight 10 s.kind.name ++ s!" {s.file}:{s.line}"
    ++ Report.unlessEmpty " in " s.function "" ++ Report.unlessEmpty " (" s.detail ")" ++ "\n"

/-- An end of a finding, as a category, a name and a place. -/
def Endpoint.summary (e : Endpoint) : String :=
  s!"{e.category} {e.name} at {e.location.file}:{e.location.line}\n"

/-- The block of a finding, with its number. -/
def Finding.block (number : Nat) (f : Finding) : String :=
  s!"\n[{number}] {Text.upper f.severity.name} {f.category}\n"
    ++ "    source: " ++ f.source.summary ++ "    sink:   " ++ f.sink.summary
    ++ s!"    hops: {f.hopDepth}  id: {f.id}\n"
    ++ String.join ((f.path.getD []).map PathStep.stepLine)

/-- The place of a diagnostic. -/
def Diagnostic.place (d : Diagnostic) : String :=
  if d.file.isEmpty then "" else " " ++ d.file ++ (if 0 < d.line then s!":{d.line}" else "")

/-- The line of a diagnostic. -/
def Diagnostic.summary (d : Diagnostic) : String :=
  "  - " ++ d.kind.name ++ d.place ++ Report.unlessEmpty " [" d.function "]"
    ++ ": " ++ d.message ++ "\n"

/-- The statistics of a run. -/
def Stats.summary (s : Stats) : String :=
  s!"Sources: {s.sources}  Sinks: {s.sinks}  Functions: {s.functions} "
    ++ s!"({s.unanalyzable} unanalyzable)  Rounds: {s.rounds}  Duration: {Duration.text s.duration}\n"

/-- A report as plain text. -/
def Report.plain (r : Report) : String :=
  let findings := r.findings.getD []
  let diagnostics := r.diagnostics.getD []
  s!"Run {r.runId}: {findings.length} finding(s), {diagnostics.length} diagnostic(s)\n"
    ++ (if r.incomplete then "WARNING: analysis incomplete, results are partial\n" else "")
    ++ r.stats.summary
    ++ String.join (findings.zipIdx.map fun (f, i) => f.block (i + 1))
    ++ (if diagnostics.isEmpty then ""
      else "\nDiagnostics:\n" ++ String.join (diagnostics.map Diagnostic.summary))

end TaintFlow
