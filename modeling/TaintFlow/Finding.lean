import TaintFlow.Facts.Row
import TaintFlow.Severity

/-!
# Findings and reports

What an analysis tells its user: proven flows with the path they take, problems it met, and how
much work was done.

## Main definitions

* `PathStep`, `Endpoint`, `Finding` — a flow from a source to a sink.
* `Diagnostic` — a problem that did not stop the analysis.
* `Stats`, `Report` — the outcome of a run.
-/

namespace TaintFlow

/-- What a step of a path is about. -/
inductive StepKind where
  | source
  | assignment
  | call
  | parameter
  | ret
  | sink
  /-- Marks where a path was cut because it crossed too many calls. -/
  | truncated
  /-- A name that is no kind. -/
  | unknown (name : String)
  deriving DecidableEq, Repr, Inhabited

/-- The name of a kind of step. -/
def StepKind.name : StepKind → String
  | .source => "source"
  | .assignment => "assignment"
  | .call => "call"
  | .parameter => "parameter"
  | .ret => "return"
  | .sink => "sink"
  | .truncated => "truncated"
  | .unknown name => name

/-- The kind of step with a given name. -/
def StepKind.ofName : String → StepKind
  | "source" => .source
  | "assignment" => .assignment
  | "call" => .call
  | "parameter" => .parameter
  | "return" => .ret
  | "sink" => .sink
  | "truncated" => .truncated
  | name => .unknown name

/-- A step of a reported path. -/
structure PathStep where
  kind : StepKind
  file : String
  line : Int
  function : String
  /-- The variable, callee or expression that the step is about. -/
  detail : String
  deriving DecidableEq, Repr, Inhabited

/-- The source or sink end of a finding. -/
structure Endpoint where
  location : Facts.Location := {}
  category : String := ""
  name : String := ""
  rule : String := ""
  risk : Severity := .unknown ""
  deriving DecidableEq, Repr, Inhabited

/-- A proven flow of untrusted data into a dangerous operation. -/
structure Finding where
  id : String := ""
  severity : Severity
  category : String
  source : Endpoint
  sink : Endpoint
  /-- The steps from the source to the sink; none when they were not recorded. -/
  path : Option (List PathStep)
  /-- How many calls the path crosses. -/
  hopDepth : Int
  /-- Whether steps were left out because the path crosses too many calls. -/
  truncated : Bool
  deriving DecidableEq, Repr, Inhabited

/-- The number of moves from step to step. -/
def Finding.pathLength (f : Finding) : Nat :=
  (f.path.getD []).length - 1

/-- What a diagnostic is about. -/
inductive DiagnosticKind where
  | unanalyzableFunction
  | maxDepthTruncation
  | cancelled
  | infeasiblePath
  | unresolvedBinding
  /-- A name that is no kind. -/
  | unknown (name : String)
  deriving DecidableEq, Repr, Inhabited

/-- The name of a kind of diagnostic. -/
def DiagnosticKind.name : DiagnosticKind → String
  | .unanalyzableFunction => "unanalyzable_function"
  | .maxDepthTruncation => "max_depth_truncation"
  | .cancelled => "cancelled"
  | .infeasiblePath => "infeasible_path"
  | .unresolvedBinding => "unresolved_binding"
  | .unknown name => name

/-- The kind of diagnostic with a given name. -/
def DiagnosticKind.ofName : String → DiagnosticKind
  | "unanalyzable_function" => .unanalyzableFunction
  | "max_depth_truncation" => .maxDepthTruncation
  | "cancelled" => .cancelled
  | "infeasible_path" => .infeasiblePath
  | "unresolved_binding" => .unresolvedBinding
  | name => .unknown name

/-- A problem that did not stop the analysis. -/
structure Diagnostic where
  kind : DiagnosticKind
  message : String
  file : String := ""
  function : String := ""
  line : Int := 0
  deriving DecidableEq, Repr, Inhabited

/-- How much work a run did. -/
structure Stats where
  sources : Int := 0
  sinks : Int := 0
  functions : Int := 0
  unanalyzable : Int := 0
  rounds : Int := 0
  /-- The duration in nanoseconds. -/
  duration : Int := 0
  deriving DecidableEq, Repr, Inhabited

/-- The outcome of a run. -/
structure Report where
  runId : String
  /-- The findings; none when the list itself is missing. -/
  findings : Option (List Finding)
  diagnostics : Option (List Diagnostic)
  /-- Whether the run ended early; what it had found is kept. -/
  incomplete : Bool
  stats : Stats
  deriving DecidableEq, Repr, Inhabited

end TaintFlow
