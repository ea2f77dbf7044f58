import TaintFlow.Flow.Feasible

/-!
# Findings from chains

Every executable chain from a source to a sink is a route of a flow.  Routes between one pair of
places and categories are one finding, shown by the best chain among them.

## Main definitions

* `Flow.Route` — a source, a sink and a chain between them.
* `Flow.severityOf` — the sink's risk, one level lower for a source of low risk.
* `Flow.Program.findings` — the findings and diagnostics of the best chains.
-/

namespace TaintFlow.Flow

open Discovery (Source Sink)

/-- A source, a sink and a chain between them. -/
structure Route where
  source : Source
  sink : Sink
  chain : Chain
  deriving Inhabited

/-- Whether two routes have the same places and categories at both ends. -/
def Route.sameEnds (a b : Route) : Bool :=
  a.source.location == b.source.location && a.source.category == b.source.category
    && a.sink.location == b.sink.location && a.sink.category == b.sink.category

/-- Adds a route: it joins the routes with the same ends, of which the better one stays. -/
def addRoute (f : Route) : List Route → List Route
  | [] => [f]
  | g :: gs =>
    if g.sameEnds f then (if better f.chain (some g.chain) then f else g) :: gs
    else g :: addRoute f gs

/-- One severity lower. -/
def lowered : Severity → Severity
  | .critical => .high
  | .high => .medium
  | .medium => .low
  | _ => .info

/-- The severity of a route: the sink's risk, one level lower for a source of low risk. -/
def severityOf (source : Source) (sink : Sink) : Severity :=
  if source.risk == .low then lowered sink.risk else sink.risk

/-- The order in which routes are looked at: by source, then by sink. -/
def compareEnds (a b : (Nat × Nat) × Chain) : Ordering :=
  (compare a.1.1 b.1.1).then (compare a.1.2 b.1.2)

namespace Program

/-- The name of the function with a number; empty when there is none. -/
def functionName (p : Program) (n : Int) : String :=
  ((p.functionAt? n).map (·.2.name)).getD ""

/-- The path of a chain. -/
def path (p : Program) (c : Chain) : List PathStep :=
  c.steps.map fun s => ⟨s.kind, s.file, s.line, p.functionName s.function, s.detail⟩

/-- The routes of chains, by source and sink. -/
def routes (p : Program) (best : Best (Nat × Nat)) : List Route :=
  (sortBy compareEnds best.entries).filterMap fun ((i, j), chain) => do
    return ⟨← p.sources[i]?, ← p.sinks[j]?, chain⟩

/-- The diagnostic of a route. -/
def routeDiagnostic (p : Program) (f : Route) (kind : DiagnosticKind) (message : String) :
    Diagnostic :=
  { kind, message, file := f.sink.location.file, function := p.functionName f.chain.last.function,
    line := f.sink.location.line }

/-- The diagnostic of a route whose chain is not executable. -/
def infeasible? (p : Program) (f : Route) : Option Diagnostic :=
  (p.blockedAt? f.chain.steps).map fun (a, b) =>
    p.routeDiagnostic f .infeasiblePath
      s!"flow from {f.source.id} to {f.sink.id} dropped: {blockedText a b}"

/-- The diagnostic of a route whose chain lacks steps. -/
def truncation? (p : Program) (f : Route) : Option Diagnostic :=
  if f.chain.truncated then
    some (p.routeDiagnostic f .maxDepthTruncation
      s!"path from {f.source.id} to {f.sink.id} exceeds the hop limit")
  else none

/-- The finding that a route is reported as. -/
def finding (p : Program) (f : Route) : Finding where
  severity := severityOf f.source f.sink
  category := Discovery.findingCategory f.sink.category
  source := { location := f.source.location, category := f.source.category,
              name := if f.source.symbol.isEmpty then f.source.function else f.source.symbol,
              rule := f.source.rule, risk := f.source.risk }
  sink := { location := f.sink.location, category := f.sink.category, name := f.sink.name,
            rule := f.sink.rule, risk := f.sink.risk }
  path := some (p.path f.chain)
  hopDepth := f.chain.depth
  truncated := f.chain.truncated

/-- The findings and diagnostics of the best chains from sources to sinks. -/
def findings (p : Program) (best : Best (Nat × Nat)) : List Finding × List Diagnostic :=
  let routes := p.routes best
  let picked := (routes.filter fun f => (p.blockedAt? f.chain.steps).isNone).foldl
    (fun acc f => addRoute f acc) []
  (picked.map p.finding, routes.filterMap p.infeasible? ++ picked.filterMap p.truncation?)

end Program

end TaintFlow.Flow
