import TaintFlow.Json.Reader
import TaintFlow.Json.Writer
import TaintFlow.Report.Encode
import TaintFlow.Store.Postgres.Source

/-!
# Reports on a server

A report is stored in one transaction: a row for the run, and a row for each finding.  The findings
of a run can be read back.

## Main definitions

* `Postgres.ensureResults` — creates the tables for reports.
* `Postgres.saveReport` — stores a report.
* `Postgres.findingsOfRun` — the stored findings of a run.
-/

namespace TaintFlow.Store.Postgres

variable {σ : Type}

/-- The statement that creates the tables for reports. -/
def resultsDefinition : String :=
  statement ["CREATE TABLE IF NOT EXISTS taint_runs (",
    "    run_id TEXT PRIMARY KEY,", "    incomplete BOOLEAN NOT NULL,",
    "    finding_count INTEGER NOT NULL,", "    diagnostics JSONB NOT NULL,",
    "    stats JSONB NOT NULL,", "    created_at TIMESTAMPTZ NOT NULL", ");",
    "CREATE TABLE IF NOT EXISTS taint_findings (",
    "    id TEXT NOT NULL,", "    run_id TEXT NOT NULL REFERENCES taint_runs (run_id),",
    "    severity TEXT NOT NULL,", "    category TEXT NOT NULL,", "    source_file TEXT NOT NULL,",
    "    source_line INTEGER NOT NULL,", "    sink_file TEXT NOT NULL,",
    "    sink_line INTEGER NOT NULL,", "    hop_depth INTEGER NOT NULL,",
    "    truncated BOOLEAN NOT NULL,", "    path JSONB NOT NULL,",
    "    PRIMARY KEY (run_id, id)", ");"]

/-- The statement that stores a run. -/
def insertRun : String :=
  statement
    ["INSERT INTO taint_runs (run_id, incomplete, finding_count, diagnostics, stats, created_at)",
     "VALUES ($1, $2, $3, $4, $5, $6);"]

/-- The query for the findings of a run. -/
def findingsQuery : String :=
  statement
    ["SELECT id, severity, category, source_file, source_line, sink_file, sink_line, hop_depth, truncated, path",
     "FROM taint_findings", "WHERE run_id = $1", "ORDER BY id ASC;"]

/-- The table of findings. -/
def findingsTable : List String := ["taint_findings"]

/-- The columns of a stored finding. -/
def findingColumns : List String :=
  ["id", "run_id", "severity", "category", "source_file", "source_line", "sink_file", "sink_line",
   "hop_depth", "truncated", "path"]

/-- Creates the tables for reports. -/
def ensureResults (pool : Pool σ) : StateM σ (Except Failure Unit) := do
  return during "failed to create results tables" (← pool.exec resultsDefinition [])

/-! ### Saving -/

/-- A stored document. -/
def document (v : Json) : Arg :=
  .text (v.compact .stored)

/-- The row of a run. -/
def runRow (r : Report) : List Arg :=
  [.text r.runId, .bool r.incomplete, .int (r.findings.getD []).length,
   document (listJson Diagnostic.toJson r.diagnostics), document r.stats.toJson, .now]

/-- The row of a finding. -/
def findingRow (runId : String) (f : Finding) : List Arg :=
  [.text f.id, .text runId, .text f.severity.name, .text f.category,
   .text f.source.location.file, .int f.source.location.line,
   .text f.sink.location.file, .int f.sink.location.line,
   .int f.hopDepth, .bool f.truncated, document (listJson PathStep.toJson f.path)]

/-- Copies findings; all of them must have been copied. -/
def copyFindings (pool : Pool σ) (runId : String) (findings : List Finding) :
    StateM σ (Except Failure Unit) := do
  match ← pool.copy findingsTable findingColumns (findings.map (findingRow runId)) with
  | .error f => return .error (.during "failed to copy findings" f)
  | .ok n =>
    let expected := findings.length
    if n == expected then return .ok ()
    else return failBecause s!"mismatch in copied findings count: expected {expected}, got {n}"

/-- The work of a transaction that stores a report. -/
def storeReport (pool : Pool σ) (r : Report) : StateM σ (Except Failure Unit) := do
  match ← pool.exec insertRun (runRow r) with
  | .error f => return .error (.during "failed to insert run" f)
  | .ok () =>
    let findings := r.findings.getD []
    let copied ← if findings.isEmpty then pure (.ok ()) else copyFindings pool r.runId findings
    match copied with
    | .error f => return .error f
    | .ok () => return during "failed to commit transaction" (← pool.commit)

/-- Stores a report in one transaction, which is taken back when anything fails. -/
def saveReport (pool : Pool σ) (r : Report) : StateM σ (Except Failure Unit) := do
  match ← pool.start with
  | .error f => return .error (.during "failed to begin transaction" f)
  | .ok () =>
    match ← storeReport pool r with
    | .ok () => return .ok ()
    | .error f => pool.rollback; return .error f

/-! ### Reading back -/

/-- The last member of an object whose key is a given one up to the case of ASCII letters. -/
def member (o : List (String × Json)) (key : String) : Json :=
  ((o.reverse.find? (fun m => m.1.toList.map Char.toLower == key.toList)).map (·.2)).getD .null

/-- A text; `null` is the empty one. -/
def strictText? : Json → Option String
  | .null => some ""
  | .str s => some s
  | _ => none

/-- A whole number; `null` is zero. -/
def strictInt? : Json → Option Int
  | .null => some 0
  | .num t => (Numeral.decimal t).toOption
  | _ => none

/-- A step of a stored path; `null` is a step that says nothing. -/
def strictStep? : Json → Option PathStep
  | .null => strictStep []
  | .obj o => strictStep o
  | _ => none
where
  /-- The step that members describe. -/
  strictStep (o : List (String × Json)) : Option PathStep := do
    return { kind := .ofName (← strictText? (member o "kind")),
             file := ← strictText? (member o "file"), line := ← strictInt? (member o "line"),
             function := ← strictText? (member o "function"),
             detail := ← strictText? (member o "detail") }

/-- The path that a stored text describes; `none` when it describes none. -/
def storedPath? (text : String) : Option (Option (List PathStep)) :=
  match Json.parse? text with
  | some .null => some none
  | some (.arr steps) => (steps.mapM strictStep?).map some
  | _ => none

/-- The finding in a row. -/
def findingOfRow (row : List Value) : Except Failure Finding :=
  let field (i : Nat) : Value := row.getD i .null
  let id := (field 0).toText
  match storedPath? (field 9).toText with
  | none => failBecause ("failed to decode path of finding " ++ id)
  | some path =>
    .ok { id, severity := .ofName (field 1).toText, category := (field 2).toText,
          source := { location := ⟨(field 3).toText, (field 4).toInt, 0⟩ },
          sink := { location := ⟨(field 5).toText, (field 6).toInt, 0⟩ },
          path, hopDepth := (field 7).toInt, truncated := (field 8).toBool }

/-- The stored findings of a run. -/
def findingsOfRun (pool : Pool σ) (runId : String) : StateM σ (Except Failure (List Finding)) := do
  match ← pool.query findingsQuery [.text runId] with
  | .error f => return .error (.during "failed to query findings" f)
  | .ok cursor => return scanRows cursor "failed to scan finding row" findingOfRow

end TaintFlow.Store.Postgres
