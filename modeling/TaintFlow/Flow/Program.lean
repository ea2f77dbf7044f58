import TaintFlow.Discovery.Engine
import TaintFlow.Expr.Sanitizers
import TaintFlow.Finding
import TaintFlow.Flow.Graph

/-!
# Programs

A program is the analysed code with a statement for every fact that matters to taint: sources that
taint a slot, calls of known functions, sinks, assignments and returns.  Each statement stands in
the innermost block that holds its line; the statements of a block are ordered by line, then by
kind, then as they were recorded.

## Main definitions

* `Flow.CallSite`, `Flow.Statement`, `Flow.Placed` — calls and statements.
* `Flow.Program` — the program.
* `Flow.Program.build` — the program of a cache with its sources and sinks.
-/

namespace TaintFlow.Flow

open Facts (Cache)
open Discovery (Source Sink)

/-- Ties an argument to a parameter of the callee. -/
structure Binding where
  param : Nat
  expr : String
  /-- The names that the argument reads. -/
  names : List String
  deriving DecidableEq, Repr, Inhabited

/-- A call of a known function. -/
structure CallSite where
  function : Nat
  callee : Nat
  file : String
  line : Int
  name : String
  bindings : List Binding
  deriving DecidableEq, Repr, Inhabited

/-- What a statement does. -/
inductive Statement where
  /-- A source puts an untrusted value into a slot. -/
  | seed (source : Nat) (slot : String)
  /-- A call; `site` is its position among the call sites. -/
  | call (site : Nat)
  /-- A dangerous operation reads names. -/
  | sink (sink : Nat) (names : List String)
  /-- An assignment: the names read, and the call sites whose results flow into the target. -/
  | assign (file target : String) (names : List String) (calls : List Nat)
  /-- A return of an expression that reads names. -/
  | ret (file expr : String) (names : List String)
  deriving DecidableEq, Repr, Inhabited

/-- The order of statements on one line. -/
def Statement.rank : Statement → Nat
  | .seed .. => 0
  | .call .. => 1
  | .sink .. => 2
  | .assign .. => 3
  | .ret .. => 4

/-- A statement with its line. -/
structure Placed where
  line : Int
  statement : Statement
  deriving DecidableEq, Repr, Inhabited

/-- A statement with its line and its block. -/
structure Placement where
  spot : Code.Spot
  placed : Placed
  deriving DecidableEq, Repr

/-- A program. -/
structure Program where
  code : Code
  sources : Array Source
  sinks : Array Sink
  calls : Array CallSite
  /-- The statements of every block of every function, in the order of evaluation. -/
  statements : Array (Array (List Placed))
  /-- For every function the sources that taint all its parameters. -/
  endpoints : Array (List Nat)
  /-- The calls between functions: caller and callee. -/
  links : List (Nat × Nat)
  diagnostics : List Diagnostic
  deriving Inhabited

namespace Program

/-- The function at a position. -/
def function? (p : Program) (i : Nat) : Option Function :=
  p.code.functions[i]?

/-- Whether a function calls another one. -/
def called (p : Program) (caller callee : Nat) : Bool :=
  p.links.contains (caller, callee)

/-- The functions that call a function, in ascending order. -/
def callers (p : Program) (i : Nat) : List Nat :=
  ascending ((p.links.filter (·.2 == i)).map (·.1))

/-- The functions that a function calls, in ascending order. -/
def callees (p : Program) (i : Nat) : List Nat :=
  ascending ((p.links.filter (·.1 == i)).map (·.2))

/-- The statements of a block in the order of evaluation. -/
def statementsAt (p : Program) (function block : Nat) : List Placed :=
  (p.statements.getD function #[]).getD block []

end Program

/-! ### Sources -/

/-- The statement of a source that taints a slot, in the innermost block that holds its line. -/
def seedPlacement? (code : Code) (s : Source) (i : Nat) : Option Placement :=
  if !s.function.isEmpty || s.symbol.isEmpty then none
  else (code.place s.location.file s.location.line "").map
    (⟨·, ⟨s.location.line, .seed i s.symbol⟩⟩)

/-- The handler whose parameters a source taints. -/
def handler? (code : Code) (s : Source) : Option Nat :=
  if s.function.isEmpty then none else code.resolve s.function "" s.location.file

/-- For every function the sources that taint its parameters. -/
def endpointSources (code : Code) (sources : List Source) : Array (List Nat) :=
  let handlers := sources.zipIdx.map fun (s, i) => (handler? code s, i)
  ((List.range code.functions.size).map fun f =>
    (handlers.filter (·.1 == some f)).map (·.2)).toArray

/-! ### Calls -/

/-- A row of a call whose callee is known and whose line lies in a block. -/
structure ResolvedCall where
  row : Facts.CallArgument
  callee : Nat
  spot : Code.Spot

/-- Resolves the callee of a row and finds its block. -/
def resolveCall? (code : Code) (row : Facts.CallArgument) : Option ResolvedCall := do
  let callee ← code.resolve row.callee (row.calleeFile.getD "") row.file
  let spot ← code.place row.file row.line row.caller
  return ⟨row, callee, spot⟩

/-- What tells call sites apart: file, caller, callee, the callee's file and line. -/
structure SiteKey where
  file : String
  caller : String
  callee : String
  calleeFile : String
  line : Int
  deriving DecidableEq, Repr

/-- The call site that a row belongs to. -/
def siteKey (row : Facts.CallArgument) : SiteKey :=
  ⟨row.file, row.caller, row.callee, row.calleeFile.getD "", row.line⟩

/-- The parameter that an argument is bound to: the one at its position, or else the one with its
name. -/
def bindParam? (f : Function) (row : Facts.CallArgument) : Option Nat :=
  let byPosition := row.index.bind fun i =>
    if 0 ≤ i && !(f.params.getD i.toNat "").isEmpty then some i.toNat else none
  byPosition <|> row.param.bind f.paramPosition?

/-- The text of a row's argument; none when it is empty. -/
def argument? (row : Facts.CallArgument) : Option String :=
  row.expr.bind fun e => if e.isEmpty then none else some e

/-- The binding of a row's argument. -/
def binding? (code : Code) (s : Sanitizers) (c : ResolvedCall) : Option Binding := do
  let expr ← argument? c.row
  let f ← code.functions[c.callee]?
  let param ← bindParam? f c.row
  return ⟨param, expr, s.residualNames (Text.bytes expr) c.row.file c.row.line Sanitizers.noCut⟩

/-- The diagnostic of an argument that is bound to no parameter. -/
def unbound? (code : Code) (c : ResolvedCall) : Option Diagnostic := do
  let expr ← argument? c.row
  let f ← code.functions[c.callee]?
  if (bindParam? f c.row).isSome then none
  else some { kind := .unresolvedBinding,
              message := "argument " ++ Text.quoted expr ++ " of call to " ++ c.row.callee
                ++ " matches no parameter",
              file := c.row.file, function := c.row.caller, line := c.row.line }

/-- The first rows of all call sites. -/
def siteHeads (rows : List ResolvedCall) : List ResolvedCall :=
  rows.foldl (fun heads c =>
    if heads.any fun h => siteKey h.row == siteKey c.row then heads else heads ++ [c]) []

/-- The call site that a row heads, with the bindings of all rows of that site. -/
def callSite (code : Code) (s : Sanitizers) (rows : List ResolvedCall) (head : ResolvedCall) :
    CallSite where
  function := head.spot.function
  callee := head.callee
  file := head.row.file
  line := head.row.line
  name := head.row.callee
  bindings := (rows.filter fun c => siteKey c.row == siteKey head.row).filterMap (binding? code s)

/-! ### Sinks, assignments and returns -/

/-- The function that the facts name for the row that a sink was found in. -/
def sinkHint (cache : Cache) (s : Sink) : String :=
  if s.origin.table == "function_call_args" then
    ((cache.callArguments[s.origin.row]?).map (·.caller)).getD ""
  else if s.origin.table == "assignments" then
    ((cache.assignments[s.origin.row]?).map (·.function)).getD ""
  else ""

/-- The distinct names that the arguments of a sink read once sanitizer calls are removed. -/
def sinkNames (san : Sanitizers) (s : Sink) : List String :=
  firsts (s.args.flatMap fun arg =>
    san.residualNames (Text.bytes arg) s.location.file s.location.line Sanitizers.noCut)

/-- The statement of a sink that reads names. -/
def sinkPlacement? (code : Code) (cache : Cache) (san : Sanitizers) (s : Sink) (i : Nat) :
    Option Placement := do
  let spot ← code.place s.location.file s.location.line (sinkHint cache s)
  let names := sinkNames san s
  if names.isEmpty then none else some ⟨spot, ⟨s.location.line, .sink i names⟩⟩

/-- The first call site of a function on a line that calls a name. -/
def siteOf? (calls : List CallSite) (function : Nat) (line : Int) (name : String) : Option Nat :=
  calls.findIdx? fun c => c.function == function && c.line == line && c.name == name

/-- The names that the facts record for the right-hand side of an assignment. -/
def recordedSources (cache : Cache) (a : Facts.Assignment) : List String :=
  (cache.assignmentSources.filter fun s =>
    s.file == a.file && s.target == a.target && s.line == a.line).map (·.name)

/-- The names an expression reads: the recorded ones if there are any, else those found in its
text. -/
def readNames (recorded residual : List String) (cut : Bool) : List String :=
  if recorded.isEmpty then residual else filterRecorded recorded residual cut

/-- The statement of an assignment.  Calls of known functions on its line are removed from its
right-hand side; their results flow into the target. -/
def assignPlacement? (code : Code) (cache : Cache) (san : Sanitizers) (calls : List CallSite)
    (a : Facts.Assignment) : Option Placement := do
  let spot ← code.place a.file a.line a.function
  let e := Text.bytes a.expr
  let site (c : Expr.Call) : Option Nat := siteOf? calls spot.function a.line c.name
  let cut (c : Expr.Call) : Bool := (site c).isSome
  let removed := san.removedCalls e a.file a.line cut
  let sites := firsts ((removed.filter fun c => !san.cleans c.name a.file a.line).filterMap site)
  let names := readNames (recordedSources cache a) (san.residualNames e a.file a.line cut)
    (!sites.isEmpty || san.removesAny e a.file a.line)
  return ⟨spot, ⟨a.line, .assign a.file a.target names sites⟩⟩

/-- The names that the facts record for a return statement. -/
def recordedReturns (cache : Cache) (r : Facts.Return) : List String :=
  (cache.returnSources.filter fun s => s.file == r.file && s.line == r.line).map (·.name)

/-- The statement of a return. -/
def returnPlacement? (code : Code) (cache : Cache) (san : Sanitizers) (r : Facts.Return) :
    Option Placement := do
  let spot ← code.place r.file r.line r.function
  let e := Text.bytes r.expr
  let names := readNames (recordedReturns cache r)
    (san.residualNames e r.file r.line Sanitizers.noCut) (san.removesAny e r.file r.line)
  return ⟨spot, ⟨r.line, .ret r.file r.expr names⟩⟩

/-! ### The program -/

/-- The order of evaluation in a block: by line, then by kind of statement. -/
def comparePlaced (a b : Placed) : Ordering :=
  (compareInt a.line b.line).then (compare a.statement.rank b.statement.rank)

/-- The statements of every block of every function.  Statements on one line and of one kind keep
the order in which they were recorded. -/
def arrange (code : Code) (placements : List Placement) : Array (Array (List Placed)) :=
  code.functions.mapIdx fun i f => f.blocks.mapIdx fun j _ =>
    sortBy comparePlaced ((placements.filter (·.spot == ⟨i, j⟩)).map (·.placed))

/-- The program of a cache with its sources and sinks. -/
def Program.build (cache : Cache) (sources : List Source) (sinks : List Sink) (san : Sanitizers) :
    Program :=
  let code := Code.ofCache cache
  let rows := cache.callArguments.filterMap (resolveCall? code)
  let heads := siteHeads rows
  let calls := heads.map (callSite code san rows)
  let seeds := sources.zipIdx.filterMap fun (s, i) => seedPlacement? code s i
  let callStatements := heads.zipIdx.map fun (h, i) =>
    (⟨h.spot, ⟨h.row.line, .call i⟩⟩ : Placement)
  let sinkStatements := sinks.zipIdx.filterMap fun (s, i) => sinkPlacement? code cache san s i
  let assigns := cache.assignments.filterMap (assignPlacement? code cache san calls)
  let returns := cache.returns.filterMap (returnPlacement? code cache san)
  { code, sources := sources.toArray, sinks := sinks.toArray, calls := calls.toArray,
    statements := arrange code (seeds ++ callStatements ++ sinkStatements ++ assigns ++ returns),
    endpoints := endpointSources code sources,
    links := firsts (calls.map fun c => (c.function, c.callee)),
    diagnostics := rows.filterMap (unbound? code) }

end TaintFlow.Flow
