import TaintFlow.Discovery.Engine
import TaintFlow.Flow.Analysis
import TaintFlow.Report.Identity
import TaintFlow.Report.Order

/-!
# Running an analysis

A run loads the facts, finds the sources and the sinks, lets its analyzers add to the results one
after another, and puts them together in a report.

## Main definitions

* `Run.Results` — what the analyzers have recorded so far.
* `Run.Analyzer` — a named analysis over the facts, the sources and the sinks.
* `Run.Plan` — the engine and the analyzers of a run.
* `Run.Plan.run` — runs a plan over a fact source.
* `Run.Outcome` — how a run ended once its report was to be saved.
-/

namespace TaintFlow

/-- The sum of two statistics, entry by entry. -/
def Stats.add (a b : Stats) : Stats where
  sources := a.sources + b.sources
  sinks := a.sinks + b.sinks
  functions := a.functions + b.functions
  unanalyzable := a.unanalyzable + b.unanalyzable
  rounds := a.rounds + b.rounds
  duration := a.duration + b.duration

namespace Run

/-- What the analyzers have recorded so far. -/
structure Results where
  findings : List Finding := []
  diagnostics : List Diagnostic := []
  incomplete : Bool := false
  stats : Stats := {}
  deriving DecidableEq, Repr, Inhabited

/-- The results of one analyzer after those of others: lists are appended, a run is incomplete
when any part of it is, and statistics add up. -/
def Results.append (a b : Results) : Results where
  findings := a.findings ++ b.findings
  diagnostics := a.diagnostics ++ b.diagnostics
  incomplete := a.incomplete || b.incomplete
  stats := a.stats.add b.stats

/-- A named analysis over the facts, the sources and the sinks. -/
structure Analyzer where
  name : String
  analyze : Facts.Cache → List Discovery.Source → List Discovery.Sink →
    StateM Budget (Except Failure Results)

/-- The results of the taint analysis. -/
def Results.ofAnalysis (a : Flow.Analysis) : Results where
  findings := a.findings
  diagnostics := a.diagnostics
  incomplete := a.incomplete
  stats := { functions := a.functions, unanalyzable := a.unanalyzable, rounds := a.rounds }

/-- The taint analysis as an analyzer. -/
def taint (limits : Flow.Limits) : Analyzer where
  name := Flow.analyzerName
  analyze cache sources sinks := do
    return .ok (.ofAnalysis (← Flow.analyze limits cache sources sinks))

/-- The engine and the analyzers of a run. -/
structure Plan where
  engine : Discovery.Engine
  analyzers : List Analyzer

/-- A plan with the taint analysis first. -/
def Plan.make (setup : Discovery.Setup) (limits : Flow.Limits) (more : List Analyzer) :
    Except Failure Plan := do
  let engine ← during "failed to create discovery engine" (Discovery.Engine.make setup)
  return ⟨engine, taint limits :: more⟩

/-- Lets analyzers add to the results one after another; the first failure ends the run. -/
def analyzeAll (cache : Facts.Cache) (sources : List Discovery.Source)
    (sinks : List Discovery.Sink) (results : Results) :
    List Analyzer → StateM Budget (Except Failure Results)
  | [] => return .ok results
  | a :: rest => do
    match ← a.analyze cache sources sinks with
    | .error f => return .error (.during ("analyzer " ++ a.name ++ " failed") f)
    | .ok r => analyzeAll cache sources sinks (results.append r) rest

/-- The report of a run: findings with their identifiers, all in the order of a report. -/
def report (runId : String) (sources : List Discovery.Source) (sinks : List Discovery.Sink)
    (results : Results) : Report where
  runId
  findings := some (Report.sortFindings (results.findings.map Finding.identified))
  diagnostics := some (Report.sortDiagnostics results.diagnostics)
  incomplete := results.incomplete
  stats := { results.stats with sources := sources.length, sinks := sinks.length }

/-- Runs a plan over a fact source. -/
def Plan.run (plan : Plan) (runId : String) (src : Store.Source Budget) :
    StateM Budget (Except Failure Report) := do
  match ← Facts.load src Schema.factTables with
  | .error f => return .error (.during "failed to load fact cache" f)
  | .ok cache =>
    let sources := plan.engine.sources cache
    let sinks := plan.engine.sinks cache
    match ← analyzeAll cache sources sinks {} plan.analyzers with
    | .error f => return .error f
    | .ok results => return .ok (report runId sources sinks results)

/-- How a run ended: a report that could not be saved is still there. -/
structure Outcome where
  report : Option Report := none
  failure : Option Failure := none
  deriving Inhabited

/-- Saves the report of a run, if there is one. -/
def Outcome.saved (save : Report → Except Failure Unit) : Except Failure Report → Outcome
  | .error f => { failure := some f }
  | .ok r =>
    match save r with
    | .ok () => { report := some r }
    | .error f => { report := some r, failure := some (.during "failed to persist report" f) }

end Run

end TaintFlow
