import TaintFlow.Schema.Tables
import TaintFlow.Store.Memory

/-!
# Sketches of programs

A sketch describes a small program by what it does: its functions, assignments, calls and returns.
Adding a part to a sketch enters the rows that an extractor would record for it.

## Main definitions

* `Store.Part` — the parts of a sketch.
* `Store.Sketch` — the facts recorded so far and the identifiers that come next.
* `Store.Sketch.add` — adds a part.
* `Store.Scenario` — four programs that the analysis is known by.
-/

namespace TaintFlow.Store

/-- A part of a sketch. -/
inductive Part where
  /-- A row as it is. -/
  | row (table : String) (values : List (String × Value))
  /-- A function whose code is one straight line. -/
  | function (file name : String) (start stop : Int) (params : List String)
  /-- A block of a function's control flow. -/
  | block (file function type : String) (start stop : Int)
  /-- An edge between two blocks. -/
  | edge (file function : String) (source target : Int) (type : String)
  /-- The parameters of a function in order. -/
  | params (file function : String) (names : List String)
  /-- An access to a property. -/
  | symbol (file name : String) (line : Int)
  /-- An assignment and the names that its right-hand side reads. -/
  | assignment (file function : String) (line : Int) (target expr : String) (sources : List String)
  /-- A call with its arguments in order. -/
  | call (file function : String) (line : Int) (callee : String) (args : List String)
  /-- A database query. -/
  | query (file : String) (line : Int) (command text : String)
  /-- A return statement and the names that it returns. -/
  | returning (file function : String) (line : Int) (expr : String) (names : List String)
  /-- A route of a web server. -/
  | endpoint (file : String) (line : Int) (method pattern handler : String) (authenticated : Bool)
  /-- A call that validates its argument. -/
  | validator (file : String) (line : Int) (framework method : String)

/-- The facts recorded so far and the identifiers that come next. -/
structure Sketch where
  store : Memory := Memory.ofTables Schema.factTables
  nextBlock : Nat := 1
  nextEdge : Nat := 1
  nextRow : Nat := 1

namespace Sketch

/-- Adding to a sketch may fail, as a row may name a table or column that is not declared. -/
abbrev Adding := StateT Sketch (Except Failure)

/-- Enters a row. -/
def put (table : String) (values : List (String × Value)) : Adding Unit := fun s =>
  match s.store.insert table values with
  | .ok store => .ok ((), { s with store })
  | .error e => failBecause e.text

/-- The identifier of the next block. -/
def takeBlock : Adding Nat := fun s => return (s.nextBlock, { s with nextBlock := s.nextBlock + 1 })

/-- The identifier of the next edge. -/
def takeEdge : Adding Nat := fun s => return (s.nextEdge, { s with nextEdge := s.nextEdge + 1 })

/-- The identifier of the next name that is read or returned. -/
def takeRow : Adding Nat := fun s => return (s.nextRow, { s with nextRow := s.nextRow + 1 })

/-- Enters a block and gives its identifier. -/
def block (file function type : String) (start stop : Int) : Adding Nat := do
  let id ← takeBlock
  put "cfg_blocks" [("id", .int id), ("file", .text file), ("function_name", .text function),
    ("block_type", .text type), ("start_line", .int start), ("end_line", .int stop)]
  return id

/-- Enters an edge. -/
def edge (file function : String) (source target : Int) (type : String) : Adding Unit := do
  let id ← takeEdge
  put "cfg_edges" [("id", .int id), ("file", .text file), ("function_name", .text function),
    ("source_block_id", .int source), ("target_block_id", .int target), ("edge_type", .text type)]

/-- Enters the parameters of a function. -/
def params (file function : String) (names : List String) : Adding Unit :=
  names.zipIdx.forM fun (name, i) =>
    put "func_params" [("file", .text file), ("function_name", .text function),
      ("param_index", .int i), ("param_name", .text name)]

/-- Enters a function: a block for its first line, one for its body and one for its last line. -/
def function (file name : String) (start stop : Int) (names : List String) : Adding Unit := do
  let entry ← block file name "entry" start start
  let body ← block file name "basic" start stop
  let exit ← block file name "exit" stop stop
  edge file name entry body "normal"
  edge file name body exit "normal"
  params file name names

/-- Enters an assignment. -/
def assignment (file function : String) (line : Int) (target expr : String)
    (sources : List String) : Adding Unit := do
  put "assignments" [("file", .text file), ("line", .int line), ("target_var", .text target),
    ("source_expr", .text expr), ("in_function", .text function)]
  sources.forM fun name => do
    let id ← takeRow
    put "assignment_sources" [("id", .int id), ("assignment_file", .text file),
      ("assignment_line", .int line), ("assignment_target", .text target),
      ("source_var_name", .text name)]

/-- Enters a call: a row per argument, and one row when there is none. -/
def call (file function : String) (line : Int) (callee : String) (args : List String) :
    Adding Unit := do
  let site : List (String × Value) := [("file", .text file), ("line", .int line),
    ("caller_function", .text function), ("callee_function", .text callee)]
  if args.isEmpty then put "function_call_args" site
  else args.zipIdx.forM fun (arg, i) =>
    put "function_call_args" (site ++ [("argument_index", .int i), ("argument_expr", .text arg)])

/-- Enters a return statement. -/
def returned (file function : String) (line : Int) (expr : String) (names : List String) :
    Adding Unit := do
  put "function_returns" [("file", .text file), ("line", .int line),
    ("function_name", .text function), ("return_expr", .text expr), ("has_jsx", .bool false),
    ("returns_component", .bool false)]
  names.forM fun name => do
    let id ← takeRow
    put "function_return_sources" [("id", .int id), ("return_file", .text file),
      ("return_line", .int line), ("return_function", .text function),
      ("return_var_name", .text name)]

/-- Adds a part; a block gives its identifier. -/
def add : Part → Adding (Option Nat)
  | .row table values => do put table values; return none
  | .function file name start stop names => do function file name start stop names; return none
  | .block file name type start stop => do return some (← block file name type start stop)
  | .edge file name source target type => do edge file name source target type; return none
  | .params file name names => do params file name names; return none
  | .symbol file name line => do
    put "symbols" [("path", .text file), ("name", .text name), ("type", .text "property"),
      ("line", .int line), ("col", .int 0), ("is_typed", .bool false)]
    return none
  | .assignment file name line target expr sources => do
    assignment file name line target expr sources; return none
  | .call file name line callee args => do call file name line callee args; return none
  | .query file line command text => do
    put "sql_queries" [("file_path", .text file), ("line_number", .int line),
      ("query_text", .text text), ("command", .text command),
      ("extraction_source", .text "code_execute")]
    return none
  | .returning file name line expr names => do returned file name line expr names; return none
  | .endpoint file line method pattern handler authenticated => do
    put "api_endpoints" [("file", .text file), ("line", .int line), ("method", .text method),
      ("pattern", .text pattern), ("has_auth", .bool authenticated),
      ("handler_function", .text handler)]
    return none
  | .validator file line framework method => do
    put "validation_framework_usage" [("file_path", .text file), ("line", .int line),
      ("framework", .text framework), ("method", .text method), ("is_validator", .bool true)]
    return none

/-- The sketch of a list of parts, with what adding each of them gave. -/
def ofParts (parts : List Part) : Except Failure (List (Option Nat) × Sketch) :=
  (parts.mapM add).run {}

end Sketch

/-- Programs that the analysis is known by. -/
inductive Scenario where
  /-- A request parameter goes straight into a query. -/
  | straightLine
  /-- The parameter is escaped before it does. -/
  | sanitized
  /-- The parameter is passed to a helper that runs it as a command. -/
  | interprocedural
  /-- The first program without the table of control-flow edges. -/
  | missingEdges
  deriving DecidableEq, Repr

namespace Scenario

/-- The scenario with a given name. -/
def ofName? : String → Option Scenario
  | "straight_line" => some .straightLine
  | "sanitized" => some .sanitized
  | "interprocedural" => some .interprocedural
  | "missing_edges" => some .missingEdges
  | _ => none

/-- A query that ends in the value of an expression. -/
def queryEnding (expr : String) : String :=
  "\"SELECT * FROM users WHERE id=\" + " ++ expr

/-- The parts of the program that builds a query from a request parameter. -/
def straightParts : List Part :=
  [.function "app.js" "handler" 1 4 [],
   .symbol "app.js" "req.id" 2,
   .assignment "app.js" "handler" 2 "q" (queryEnding "req.id") [],
   .call "app.js" "handler" 3 "db.query" ["q"],
   .query "app.js" 3 "SELECT" (queryEnding "req.id")]

/-- The parts of a scenario. -/
def parts : Scenario → List Part
  | .straightLine => straightParts
  | .sanitized =>
    [.function "app.js" "handler" 1 5 [],
     .symbol "app.js" "req.id" 2,
     .assignment "app.js" "handler" 2 "id" "escape(req.id)" [],
     .assignment "app.js" "handler" 3 "q" (queryEnding "id") [],
     .call "app.js" "handler" 4 "db.query" ["q"],
     .query "app.js" 4 "SELECT" (queryEnding "id")]
  | .interprocedural =>
    [.function "app.js" "handler" 1 4 [],
     .function "app.js" "helper" 10 13 ["cmd"],
     .symbol "app.js" "req.id" 2,
     .call "app.js" "handler" 2 "helper" ["req.id"],
     .call "app.js" "helper" 11 "child_process.exec" ["cmd"]]
  | .missingEdges => straightParts

/-- The facts of a scenario. -/
def store (s : Scenario) : Except Failure Memory := do
  let (_, sketch) ← Sketch.ofParts s.parts
  return if s == .missingEdges then sketch.store.dropTable "cfg_edges" else sketch.store

end Scenario

end TaintFlow.Store
