/-!
# Table descriptors

The facts about a code base are kept in tables.  A descriptor says which columns a table has,
which of them are indexed, what its primary key is, and which columns locate a row in the analysed
code.

## Main definitions

* `Schema.ColumnType`, `Schema.Column`, `Schema.LocationRoles`, `Schema.Table`.
* `Schema.Table.column?` — a column by name.
* `Schema.Table.indexedColumns` — the columns that have an index.
-/

namespace TaintFlow.Schema

/-- The storage type of a column. -/
inductive ColumnType where
  | integer
  | text
  | real
  | blob
  | boolean
  /-- A name that is no storage type. -/
  | unknown (name : String)
  deriving DecidableEq, Repr, Inhabited

namespace ColumnType

/-- The name of a storage type. -/
def name : ColumnType → String
  | .integer => "INTEGER"
  | .text => "TEXT"
  | .real => "REAL"
  | .blob => "BLOB"
  | .boolean => "BOOLEAN"
  | .unknown name => name

/-- The storage type with a given name. -/
def ofName (s : String) : ColumnType :=
  match s with
  | "INTEGER" => .integer
  | "TEXT" => .text
  | "REAL" => .real
  | "BLOB" => .blob
  | "BOOLEAN" => .boolean
  | s => .unknown s

/-- Whether this is one of the storage types. -/
def valid : ColumnType → Bool
  | .unknown _ => false
  | _ => true

/-- Whether columns of this type may be indexed. -/
def indexable : ColumnType → Bool
  | .integer | .text | .boolean => true
  | _ => false

end ColumnType

/-- A column of a table. -/
structure Column where
  name : String
  type : ColumnType
  nullable : Bool := false
  indexed : Bool := false
  deriving DecidableEq, Repr, Inhabited

/-- The columns that locate a row in the analysed code; empty where none does. -/
structure LocationRoles where
  file : String := ""
  line : String := ""
  column : String := ""
  deriving DecidableEq, Repr, Inhabited

/-- The description of a table. -/
structure Table where
  name : String
  columns : List Column
  primaryKey : List String := []
  location : LocationRoles := {}
  deriving DecidableEq, Repr, Inhabited

namespace Table

/-- The column with a given name. -/
def column? (t : Table) (name : String) : Option Column :=
  t.columns.find? (·.name == name)

/-- Whether the table declares a column. -/
def hasColumn (t : Table) (name : String) : Bool :=
  (t.column? name).isSome

/-- The names of the columns in declared order. -/
def columnNames (t : Table) : List String :=
  t.columns.map (·.name)

/-- The columns that have an index, in declared order. -/
def indexedColumns (t : Table) : List Column :=
  t.columns.filter (·.indexed)

end Table

/-- The table with a given name. -/
def lookup? (tables : List Table) (name : String) : Option Table :=
  tables.find? (·.name == name)

end TaintFlow.Schema
