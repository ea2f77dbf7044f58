import TaintFlow.Failure
import TaintFlow.Flow.Findings
import TaintFlow.Flow.Rounds

/-!
# The taint analysis

The analysis of a cache: it builds the program, runs the rounds and reports findings.

## Main definitions

* `Flow.Limits` — the sanitizers, the hop limit and the limit of rounds.
* `Flow.Analysis` — the outcome.
* `Flow.analyze` — runs the analysis.
-/

namespace TaintFlow.Flow

/-- How many calls a path may cross unless another limit is given. -/
def defaultMaxHops : Nat := 5

/-- How many rounds are run at most unless another limit is given. -/
def defaultMaxRounds : Nat := 10000

/-- What an analysis is given besides the facts. -/
structure Limits where
  sanitizers : List String := builtinSanitizers
  maxHops : Nat := defaultMaxHops
  maxRounds : Nat := defaultMaxRounds
  deriving Repr

/-- A limit that falls back to its default unless it is positive. -/
def limitOr (n : Int) (fallback : Nat) : Nat :=
  if 0 < n then n.toNat else fallback

/-- The name, the description and the family of this analysis. -/
def analyzerName : String := "taint"

/-- What this analysis does. -/
def analyzerDescription : String := "Interprocedural source to sink taint flow analysis"

/-- The family of analyses that look at collected facts only. -/
def analyzerType : String := "STATIC"

/-- The outcome of an analysis. -/
structure Analysis where
  findings : List Finding
  diagnostics : List Diagnostic
  incomplete : Bool
  rounds : Nat
  functions : Nat
  unanalyzable : Nat
  deriving Inhabited

/-- The diagnostic of a function that cannot be analysed. -/
def defectDiagnostic? (f : Function) : Option Diagnostic :=
  f.defect.map fun d =>
    { kind := .unanalyzableFunction, message := "control flow graph rejected: " ++ d.text,
      file := f.file, function := f.name }

/-- The diagnostic of rounds that ended before the fixed point. -/
def stopDiagnostic (maxRounds rounds : Nat) (cancelled : Bool) : Diagnostic :=
  { kind := .cancelled,
    message := if cancelled then s!"analysis stopped in round {rounds}: context canceled"
      else s!"round limit of {maxRounds} reached" }

/-- Runs the analysis. -/
def analyze (limits : Limits) (cache : Facts.Cache) (sources : List Discovery.Source)
    (sinks : List Discovery.Sink) : StateM Budget Analysis := do
  let program := Program.build cache sources sinks (Sanitizers.make limits.sanitizers (some cache))
  let defects := program.code.functions.toList.filterMap defectDiagnostic?
  let result ← program.rounds limits.maxHops limits.maxRounds
  let cancelled ← if result.incomplete then Budget.poll else pure false
  let stop := if result.incomplete then
      [stopDiagnostic limits.maxRounds result.knowledge.rounds cancelled]
    else []
  let (findings, diagnostics) := program.findings result.knowledge.flows
  return { findings, diagnostics := program.diagnostics ++ defects ++ stop ++ diagnostics,
           incomplete := result.incomplete, rounds := result.knowledge.rounds,
           functions := program.code.functions.size, unanalyzable := defects.length }

end TaintFlow.Flow
