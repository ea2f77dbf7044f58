import TaintFlow.Schema.Basic

/-!
# Data definition statements

The SQL statements that create the declared tables and their indexes.

## Main definitions

* `Schema.Statement` — a table or an index to be created.
* `Schema.statements` — the statements for a list of tables in declared order.
* `Schema.definitionText` — their text.
-/

namespace TaintFlow.Schema

/-- The SQL dialects. -/
inductive Dialect where
  | sqlite
  | postgres
  deriving DecidableEq, Repr

/-- The dialect with a given name; every name but one stands for the default dialect. -/
def Dialect.ofName (s : String) : Dialect :=
  if s == "postgres" then .postgres else .sqlite

/-- The name of a storage type in a dialect. -/
def Dialect.typeName (d : Dialect) (t : ColumnType) : String :=
  match d, t with
  | .postgres, .blob => "BYTEA"
  | .postgres, .real => "DOUBLE PRECISION"
  | .postgres, .integer => "BIGINT"
  | _, t => t.name

/-- A statement that creates something unless its name is taken. -/
inductive Statement where
  | createTable (table : Table)
  | createIndex (name table column : String)
  deriving DecidableEq, Repr

/-- The name of the index on a column. -/
def indexName (table column : String) : String :=
  "idx_" ++ table ++ "_" ++ column

/-- The statements for one table: the table, then an index per indexed column. -/
def tableStatements (t : Table) : List Statement :=
  .createTable t :: t.indexedColumns.map fun c =>
    .createIndex (indexName t.name c.name) t.name c.name

/-- The statements for a list of tables, in declared order. -/
def statements (tables : List Table) : List Statement :=
  tables.flatMap tableStatements

/-- The lines that declare columns; `more` tells whether the primary key follows. -/
def columnLines (d : Dialect) (more : Bool) : List Column → String
  | [] => ""
  | c :: cs =>
    "    " ++ c.name ++ " " ++ d.typeName c.type ++ (if c.nullable then "" else " NOT NULL")
      ++ (if !cs.isEmpty || more then "," else "") ++ "\n" ++ columnLines d more cs

/-- The text of a statement, with the semicolon and the line end that close it. -/
def Statement.text (d : Dialect) : Statement → String
  | .createTable t =>
    "CREATE TABLE IF NOT EXISTS " ++ t.name ++ " (\n"
      ++ columnLines d (!t.primaryKey.isEmpty) t.columns
      ++ (if t.primaryKey.isEmpty then ""
        else "    PRIMARY KEY (" ++ ", ".intercalate t.primaryKey ++ ")\n")
      ++ ");\n"
  | .createIndex name table column =>
    "CREATE INDEX IF NOT EXISTS " ++ name ++ " ON " ++ table ++ " (" ++ column ++ ");\n"

/-- The text of the statements for one table. -/
def tableText (d : Dialect) (t : Table) : String :=
  String.join ((tableStatements t).map (·.text d))

/-- The text of the statements for a list of tables, a blank line between tables. -/
def definitionText (tables : List Table) (d : Dialect) : String :=
  "\n".intercalate (tables.map (tableText d))

end TaintFlow.Schema
