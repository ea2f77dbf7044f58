import TaintFlow.Failure
import TaintFlow.Schema.Basic
import TaintFlow.Schema.Naming

/-!
# Well-formed descriptors

Descriptors must have names that are identifiers and stay apart in generated code, storage types
that exist, indexes only on types with an order, and keys and locations that name their own
columns.  The first problem is reported.

## Main definitions

* `Schema.Problem` — what may be wrong with a descriptor, and its wording.
* `Schema.Malformed` — a problem with the table and column it concerns.
* `Schema.validate` — the first problem of a list of descriptors.
-/

namespace TaintFlow.Schema

/-- What may be wrong with a descriptor. -/
inductive Problem where
  | noTables
  | tableName
  | duplicateTable
  | tableCollision (exported other : String)
  | noColumns
  | columnName
  | duplicateColumn
  | unknownType (type : ColumnType)
  | notIndexable (type : ColumnType)
  | reserved (exported : String)
  | keyword (field : String)
  | columnCollision (exported other : String)
  | unknownKeyColumn
  | locationWithoutFile
  | unknownLocationColumn (role : String)
  | locationType (role : String) (wanted actual : ColumnType)
  deriving DecidableEq, Repr

/-- The wording of a problem. -/
def Problem.text : Problem → String
  | .noTables => "no tables declared"
  | .tableName => "table name must be a lower-case snake_case identifier"
  | .duplicateTable => "duplicate table"
  | .tableCollision exported other =>
    "Go name " ++ Text.quoted exported ++ " collides with table " ++ Text.quoted other
  | .noColumns => "table has no columns"
  | .columnName => "column name must be a lower-case snake_case identifier"
  | .duplicateColumn => "duplicate column"
  | .unknownType type => "unknown type " ++ Text.quoted type.name
  | .notIndexable type => type.name ++ " columns cannot be indexed"
  | .reserved exported => "Go name " ++ Text.quoted exported ++ " is reserved"
  | .keyword field => Text.quoted field ++ " is a Go keyword"
  | .columnCollision exported other =>
    "Go name " ++ Text.quoted exported ++ " collides with column " ++ Text.quoted other
  | .unknownKeyColumn => "primary key references unknown column"
  | .locationWithoutFile => "location line or column role set without a file role"
  | .unknownLocationColumn role => "location " ++ role ++ " role references unknown column"
  | .locationType role wanted actual =>
    "location " ++ role ++ " role must be " ++ wanted.name ++ ", got " ++ actual.name

/-- A problem with the table and column it concerns; either may be empty. -/
structure Malformed where
  table : String := ""
  column : String := ""
  problem : Problem
  deriving DecidableEq, Repr

/-- A malformed descriptor as a failure. -/
def Malformed.failure (m : Malformed) : Failure :=
  .malformed m.table m.column m.problem.text

/-- Exported names that generated rows use for their own methods. -/
def reservedFields : List String :=
  ["Field", "Location"]

/-- The problem of a column, given the columns declared before it. -/
def columnProblem? (before : List Column) (c : Column) : Option Problem :=
  let exported := exportedName c.name
  if !isIdentifier c.name then some .columnName
  else if before.any (·.name == c.name) then some .duplicateColumn
  else if !c.type.valid then some (.unknownType c.type)
  else if c.indexed && !c.type.indexable then some (.notIndexable c.type)
  else if reservedFields.contains exported then some (.reserved exported)
  else match before.find? (exportedName ·.name == exported) with
    | some other => some (.columnCollision exported other.name)
    | none => none

/-- The first problem among columns, `before` being the columns checked already. -/
def columnsProblem? (table : String) (before : List Column) : List Column → Option Malformed
  | [] => none
  | c :: cs =>
    match columnProblem? before c with
    | some problem => some { table, column := c.name, problem }
    | none => columnsProblem? table (before ++ [c]) cs

/-- The problem of a location role: its column must exist and have the type wanted. -/
def roleProblem? (t : Table) (role column : String) (wanted : ColumnType) : Option Malformed :=
  if column.isEmpty then none
  else match t.column? column with
    | none => some { table := t.name, column, problem := .unknownLocationColumn role }
    | some c =>
      if c.type == wanted then none
      else some { table := t.name, column, problem := .locationType role wanted c.type }

/-- The problem of the location roles of a table. -/
def locationProblem? (t : Table) : Option Malformed :=
  let l := t.location
  if l.file.isEmpty && (!l.line.isEmpty || !l.column.isEmpty) then
    some { table := t.name, problem := .locationWithoutFile }
  else
    roleProblem? t "file" l.file .text <|> roleProblem? t "line" l.line .integer
      <|> roleProblem? t "column" l.column .integer

/-- The first problem inside a table. -/
def tableProblem? (t : Table) : Option Malformed :=
  if t.columns.isEmpty then some { table := t.name, problem := .noColumns }
  else
    columnsProblem? t.name [] t.columns
      <|> (t.primaryKey.find? (! t.hasColumn ·)).map
        (fun column => { table := t.name, column, problem := .unknownKeyColumn })
      <|> locationProblem? t

/-- The problem of a table's name, given the tables declared before it. -/
def nameProblem? (before : List Table) (t : Table) : Option Problem :=
  if !isIdentifier t.name then some .tableName
  else if before.any (·.name == t.name) then some .duplicateTable
  else match before.find? (exportedName ·.name == exportedName t.name) with
    | some other => some (.tableCollision (exportedName t.name) other.name)
    | none => none

/-- The first problem among tables, `before` being the tables checked already. -/
def tablesProblem? (before : List Table) : List Table → Option Malformed
  | [] => none
  | t :: ts =>
    match nameProblem? before t with
    | some problem => some { table := t.name, problem }
    | none => tableProblem? t <|> tablesProblem? (before ++ [t]) ts

/-- The first problem of a list of descriptors. -/
def validate (tables : List Table) : Option Malformed :=
  if tables.isEmpty then some { problem := .noTables } else tablesProblem? [] tables

end TaintFlow.Schema
