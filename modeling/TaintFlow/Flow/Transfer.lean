import TaintFlow.Flow.Program
import TaintFlow.Flow.State

/-!
# The effect of statements

How statements change the taint state of a function, and what they record: flows from sources to
sinks, the function's summary, and the parameters of callees that receive taint.

## Main definitions

* `Flow.Snapshot` — the summaries and tainted parameters of all functions before a round.
* `Flow.Records` — what the analysis of a function records.
* `Flow.Scope` — a function under analysis with the snapshot and the hop limit.
* `Flow.Scope.compose`, `Flow.Scope.lift` — chains that cross a call.
* `Flow.Scope.transfer` — the effect of one statement.
-/

namespace TaintFlow.Flow

/-- What is known of all functions before a round. -/
structure Snapshot where
  summaries : Array Summary
  /-- For every function the set of parameters that receive taint. -/
  params : Array Nat
  deriving Inhabited

/-- The summary of a function. -/
def Snapshot.summary (s : Snapshot) (i : Nat) : Summary :=
  s.summaries.getD i {}

/-- What the analysis of one function records. -/
structure Records where
  summary : Summary := {}
  /-- The best chain from a source to a sink. -/
  flows : Best (Nat × Nat) := {}
  /-- The functions called, each with a parameter that receives taint. -/
  args : List (Nat × Nat) := []
  deriving Inhabited

/-- A function under analysis. -/
structure Scope where
  program : Program
  snapshot : Snapshot
  /-- How many calls a chain may cross before steps are left out. -/
  maxHops : Nat
  index : Nat
  function : Function
  deriving Inhabited

namespace Records

/-- Records that a root reaches a sink. -/
def reachSink (r : Records) (root : Root) (sink : Nat) (c : Chain) : Records :=
  match root with
  | .param p => { r with summary := { r.summary with sinks := r.summary.sinks.offer (p, sink) c } }
  | .source s => { r with flows := r.flows.offer (s, sink) c }

/-- Records that a root reaches a return. -/
def reachReturn (r : Records) (root : Root) (c : Chain) : Records :=
  match root with
  | .param p => { r with summary := { r.summary with returns := r.summary.returns.offer p c } }
  | .source s =>
    { r with summary := { r.summary with intrinsic := r.summary.intrinsic.offer s c } }

/-- Records that a parameter of a callee receives taint. -/
def passTaint (r : Records) (callee param : Nat) : Records :=
  { r with args := addNew r.args (callee, param) }

end Records

/-- Marks where steps were left out. -/
def truncationMark (line : Int) (file detail : String) : Step :=
  ⟨.truncated, -1, -1, -1, line, file, detail⟩

namespace Scope

/-- A chain of the caller, the call, and a chain of the callee.  When it crosses too many calls,
the steps of the callee are left out but for the last one. -/
def compose (s : Scope) (caller : Chain) (call : Step) (callee : Chain) : Chain :=
  let depth := caller.depth + callee.depth + 1
  if depth ≤ s.maxHops then (caller.push call).append callee depth
  else
    { ((caller.push call).push (truncationMark call.line call.file call.detail)).push callee.last with
      depth := s.maxHops + 1, truncated := true }

/-- A chain of a callee seen from its caller.  When it crosses too many calls, only its first and
last steps stay. -/
def lift (s : Scope) (callee : Chain) (site : CallSite) : Chain :=
  let depth := callee.depth + 1
  if depth ≤ s.maxHops then { callee with depth }
  else
    { ((Chain.single callee.first).push (truncationMark site.line site.file site.name)).push
        callee.last with
      depth := s.maxHops + 1, truncated := true }

/-- The entry block as a number; -1 when there is none. -/
def entryNumber (s : Scope) : Int :=
  match s.function.entry with
  | some i => i
  | none => -1

/-- The step of a parameter on entry. -/
def paramStep (s : Scope) (name : String) : Step :=
  ⟨.parameter, s.index, s.entryNumber, -1, s.function.line, s.function.file, name⟩

/-- The step of a source that taints all parameters on entry. -/
def endpointStep (s : Scope) (src : Discovery.Source) : Step :=
  ⟨.source, s.index, s.entryNumber, -2, src.location.line, src.location.file, src.function⟩

/-- The named parameters with their positions. -/
def namedParams (s : Scope) : List (String × Nat) :=
  s.function.params.zipIdx.filter (!·.1.isEmpty)

/-- The state on entry: the parameters that receive taint from callers, and all named parameters
for every source that the function handles. -/
def entryState (s : Scope) : State :=
  let received := s.snapshot.params.getD s.index 0
  let fromCallers := s.namedParams.foldl (fun st (name, i) =>
    if received.testBit i then st.offer (name, .param i) (.single (s.paramStep name)) else st)
    ({} : State)
  (s.program.endpoints.getD s.index []).foldl (fun st i =>
    match s.program.sources[i]? with
    | none => st
    | some src =>
      s.namedParams.foldl (fun st (name, _) =>
        st.offer (name, .source i) ((Chain.single (s.endpointStep src)).push (s.paramStep name)))
        st)
    fromCallers

/-- The step of a statement of this function. -/
def stepAt (s : Scope) (block pos : Nat) (line : Int) (kind : StepKind) (file detail : String) :
    Step :=
  ⟨kind, s.index, block, pos, line, file, detail⟩

/-- The effect of a call: taint enters parameters of the callee and reaches its sinks. -/
def transferCall (s : Scope) (st : State) (rec : Records) (site : CallSite) (call : Step) :
    Records :=
  site.bindings.foldl (fun rec b =>
    (st.read b.names).entries.foldl (fun rec (root, chain) =>
      ((s.snapshot.summary site.callee).sinksOf b.param).foldl (fun rec (sink, tail) =>
        rec.reachSink root sink (s.compose chain call tail))
        (rec.passTaint site.callee b.param))
      rec)
    rec

/-- What flows out of a call into the target of an assignment. -/
def returnFlows (s : Scope) (st : State) (site : CallSite) (assign : Step) (flows : Best Root) :
    Best Root :=
  let call : Step := { assign with kind := .call, detail := site.name }
  let callee := s.snapshot.summary site.callee
  let bound := site.bindings.foldl (fun flows b =>
    match callee.returns.get? b.param with
    | none => flows
    | some tail =>
      (st.read b.names).entries.foldl (fun flows (root, chain) =>
        flows.offer root ((s.compose chain call tail).push assign)) flows)
    flows
  callee.intrinsic.entries.foldl (fun flows (i, tail) =>
    flows.offer (.source i) ((s.lift tail site).push assign)) bound

/-- What an assignment stores in its target. -/
def assignFlows (s : Scope) (st : State) (names : List String) (calls : List Nat) (assign : Step) :
    Best Root :=
  let read : Best Root :=
    ⟨(st.read names).entries.map fun (root, chain) => (root, chain.push assign)⟩
  calls.foldl (fun flows i =>
    match s.program.calls[i]? with
    | none => flows
    | some site => s.returnFlows st site assign flows) read

/-- The effect of one statement. -/
def transfer (s : Scope) (block pos : Nat) (x : State × Records) (p : Placed) : State × Records :=
  let (st, rec) := x
  let here := s.stepAt block pos p.line
  match p.statement with
  | .seed i slot =>
    match s.program.sources[i]? with
    | none => (st, rec)
    | some src => (st.offer (slot, .source i) (.single (here .source src.location.file slot)), rec)
  | .call i =>
    match s.program.calls[i]? with
    | none => (st, rec)
    | some site => (st, s.transferCall st rec site (here .call site.file site.name))
  | .sink i names =>
    match s.program.sinks[i]? with
    | none => (st, rec)
    | some sink =>
      (st, (st.read names).entries.foldl (fun rec (root, chain) =>
        rec.reachSink root i (chain.push (here .sink sink.location.file sink.name))) rec)
  | .assign file target names calls =>
    let flows := s.assignFlows st names calls (here .assignment file target)
    (flows.entries.foldl (fun st (root, chain) => st.offer (target, root) chain) (st.kill target),
      rec)
  | .ret file expr names =>
    (st, (st.read names).entries.foldl (fun rec (root, chain) =>
      rec.reachReturn root (chain.push (here .ret file expr))) rec)

/-- The effect of the statements of a block, the first one having position `pos`. -/
def transferAll (s : Scope) (block pos : Nat) (x : State × Records) :
    List Placed → State × Records
  | [] => x
  | p :: ps => s.transferAll block (pos + 1) (s.transfer block pos x p) ps

/-- The effect of a block. -/
def transferBlock (s : Scope) (block : Nat) (x : State × Records) : State × Records :=
  s.transferAll block 0 x (s.program.statementsAt s.index block)

end Scope

end TaintFlow.Flow
