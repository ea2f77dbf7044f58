import TaintFlow.Facts.Cache

/-!
# Facts by their meaning

The rows of the tables that the analysis reads, with their columns under names of their own.

## Main definitions

* `Facts.Assignment`, `Facts.CallArgument`, `Facts.Parameter`, `Facts.Return`,
  `Facts.ReturnSource`, `Facts.AssignmentSource`, `Facts.BlockFact`, `Facts.EdgeFact`,
  `Facts.Validation` — rows.
* `Cache.assignments` and so on — the rows of a cache in load order.
-/

namespace TaintFlow.Facts

/-- An assignment to a slot. -/
structure Assignment where
  file : String
  line : Int
  target : String
  expr : String
  function : String
  deriving DecidableEq, Repr

/-- A name that the right-hand side of an assignment reads. -/
structure AssignmentSource where
  file : String
  line : Int
  target : String
  name : String
  deriving DecidableEq, Repr

/-- An argument of a call. -/
structure CallArgument where
  file : String
  line : Int
  caller : String
  callee : String
  /-- The position of the argument, if it is recorded. -/
  index : Option Int
  expr : Option String
  param : Option String
  /-- The file of the callee, if it is recorded. -/
  calleeFile : Option String
  deriving DecidableEq, Repr

/-- A parameter of a function. -/
structure Parameter where
  file : String
  function : String
  index : Int
  name : String
  deriving DecidableEq, Repr

/-- A return statement. -/
structure Return where
  file : String
  line : Int
  function : String
  expr : String
  deriving DecidableEq, Repr

/-- A name that a returned expression reads. -/
structure ReturnSource where
  file : String
  line : Int
  function : String
  name : String
  deriving DecidableEq, Repr

/-- A basic block of a control-flow graph. -/
structure BlockFact where
  id : Int
  file : String
  function : String
  type : String
  start : Int
  stop : Int
  deriving DecidableEq, Repr

/-- An edge of a control-flow graph. -/
structure EdgeFact where
  id : Int
  file : String
  function : String
  source : Int
  target : Int
  deriving DecidableEq, Repr

/-- A call of a validation framework. -/
structure Validation where
  file : String
  line : Int
  method : String
  isValidator : Bool
  deriving DecidableEq, Repr

/-- The integer of a field that may be NULL. -/
def Field.int? : Field → Option Int
  | .int n => some n
  | _ => none

/-- An assignment, from its row. -/
def Assignment.ofRow (r : Row) : Assignment :=
  let f := r.field Schema.assignments
  ⟨(f "file").toText, (f "line").toInt, (f "target_var").toText, (f "source_expr").toText,
    (f "in_function").toText⟩

/-- A name read by an assignment, from its row. -/
def AssignmentSource.ofRow (r : Row) : AssignmentSource :=
  let f := r.field Schema.assignmentSources
  ⟨(f "assignment_file").toText, (f "assignment_line").toInt, (f "assignment_target").toText,
    (f "source_var_name").toText⟩

/-- An argument, from its row. -/
def CallArgument.ofRow (r : Row) : CallArgument :=
  let f := r.field Schema.functionCallArgs
  ⟨(f "file").toText, (f "line").toInt, (f "caller_function").toText,
    (f "callee_function").toText, (f "argument_index").int?, (f "argument_expr").text?,
    (f "param_name").text?, (f "callee_file_path").text?⟩

/-- A parameter, from its row. -/
def Parameter.ofRow (r : Row) : Parameter :=
  let f := r.field Schema.funcParams
  ⟨(f "file").toText, (f "function_name").toText, (f "param_index").toInt,
    (f "param_name").toText⟩

/-- A return statement, from its row. -/
def Return.ofRow (r : Row) : Return :=
  let f := r.field Schema.functionReturns
  ⟨(f "file").toText, (f "line").toInt, (f "function_name").toText, (f "return_expr").toText⟩

/-- A name read by a return statement, from its row. -/
def ReturnSource.ofRow (r : Row) : ReturnSource :=
  let f := r.field Schema.functionReturnSources
  ⟨(f "return_file").toText, (f "return_line").toInt, (f "return_function").toText,
    (f "return_var_name").toText⟩

/-- A block, from its row. -/
def BlockFact.ofRow (r : Row) : BlockFact :=
  let f := r.field Schema.cfgBlocks
  ⟨(f "id").toInt, (f "file").toText, (f "function_name").toText, (f "block_type").toText,
    (f "start_line").toInt, (f "end_line").toInt⟩

/-- An edge, from its row. -/
def EdgeFact.ofRow (r : Row) : EdgeFact :=
  let f := r.field Schema.cfgEdges
  ⟨(f "id").toInt, (f "file").toText, (f "function_name").toText, (f "source_block_id").toInt,
    (f "target_block_id").toInt⟩

/-- A call of a validation framework, from its row. -/
def Validation.ofRow (r : Row) : Validation :=
  let f := r.field Schema.validationFrameworkUsage
  ⟨(f "file_path").toText, (f "line").toInt, (f "method").toText, (f "is_validator").toBool⟩

namespace Cache

/-- The assignments in load order. -/
def assignments (c : Cache) : List Assignment :=
  (c.rows Schema.assignments).map .ofRow

/-- The names read by assignments, in load order. -/
def assignmentSources (c : Cache) : List AssignmentSource :=
  (c.rows Schema.assignmentSources).map .ofRow

/-- The call arguments in load order. -/
def callArguments (c : Cache) : List CallArgument :=
  (c.rows Schema.functionCallArgs).map .ofRow

/-- The parameters in load order. -/
def parameters (c : Cache) : List Parameter :=
  (c.rows Schema.funcParams).map .ofRow

/-- The return statements in load order. -/
def returns (c : Cache) : List Return :=
  (c.rows Schema.functionReturns).map .ofRow

/-- The names read by return statements, in load order. -/
def returnSources (c : Cache) : List ReturnSource :=
  (c.rows Schema.functionReturnSources).map .ofRow

/-- The blocks in load order. -/
def blocks (c : Cache) : List BlockFact :=
  (c.rows Schema.cfgBlocks).map .ofRow

/-- The edges in load order. -/
def edges (c : Cache) : List EdgeFact :=
  (c.rows Schema.cfgEdges).map .ofRow

/-- The calls of validation frameworks in load order. -/
def validations (c : Cache) : List Validation :=
  (c.rows Schema.validationFrameworkUsage).map .ofRow

/-- The rows of a declared table whose indexed column has the text `s`, in load order. -/
def select (c : Cache) (t : Schema.Table) (column s : String) : List Row :=
  match c.table? t.name with
  | some f => (f.select? column (.text s)).getD []
  | none => []

end Cache

end TaintFlow.Facts
