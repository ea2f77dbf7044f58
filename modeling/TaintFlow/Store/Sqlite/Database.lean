import TaintFlow.Disk
import TaintFlow.Schema.Tables
import TaintFlow.Store.Source
import TaintFlow.Store.Sqlite.Value

/-!
# Database files

A database file holds tables of stored values.  The names of tables and columns match in any case
of their ASCII letters.

## Main definitions

* `Sqlite.Database` — the tables; `Database.create`, `Database.insert` add tables and rows.
* `Sqlite.Connection` — a database that is open for reading, or a file that holds none.
* `Sqlite.Connection.source` — the connection as a source of facts.
* `Sqlite.writeFacts` — copies the declared tables of a source to a database.
-/

namespace TaintFlow.Store.Sqlite

/-- A failure of the database itself. -/
def fault (text : String) : Failure :=
  .because ("sqlite: " ++ text)

/-- Whether two names are equal up to the case of ASCII letters. -/
def sameName (a b : String) : Bool :=
  a.toList.map Char.toLower == b.toList.map Char.toLower

/-- A table of a database. -/
structure Table where
  name : String
  columns : List String
  rows : List (List Stored) := []
  deriving DecidableEq, Repr, Inhabited

/-- The tables of a database. -/
structure Database where
  tables : List Table := []
  deriving DecidableEq, Repr, Inhabited

namespace Table

/-- The position of a column. -/
def position? (t : Table) (column : String) : Option Nat :=
  t.columns.findIdx? (sameName · column)

/-- The values of a row at the given positions. -/
def pick (positions : List Nat) (row : List Stored) : List Stored :=
  positions.map fun i => row.getD i .null

end Table

namespace Database

/-- The table with a given name. -/
def table? (db : Database) (name : String) : Option Table :=
  db.tables.find? (sameName ·.name name)

/-- The columns of a table; none when it does not exist. -/
def columns (db : Database) (table : String) : List String :=
  ((db.table? table).map (·.columns)).getD []

/-- Whether some name stands in a list twice. -/
def repeats : List String → Bool
  | [] => false
  | c :: cs => cs.any (sameName c) || repeats cs

/-- Adds an empty table.  The name must be new and the columns must differ. -/
def create (db : Database) (name : String) (columns : List String) : Except Failure Database :=
  if (db.table? name).isSome then .error (fault ("table " ++ name ++ " already exists"))
  else if repeats columns then .error (fault "duplicate column name")
  else .ok ⟨db.tables ++ [{ name := name, columns := columns }]⟩

/-- Adds rows at the end of a table. -/
def insert (db : Database) (table : String) (rows : List (List Stored)) : Database :=
  ⟨db.tables.map fun t => if sameName t.name table then { t with rows := t.rows ++ rows } else t⟩

/-- The positions of the chosen columns. -/
def positions (t : Table) (columns : List String) : Except Failure (List Nat) :=
  columns.mapM fun c =>
    match t.position? c with
    | some i => .ok i
    | none => .error (fault ("no such column: " ++ c))

/-- The chosen columns of all rows of a table. -/
def select (db : Database) (table : String) (columns : List String) :
    Except Failure (List (List Stored)) :=
  match db.table? table with
  | none => .error (fault ("no such table: " ++ table))
  | some t =>
    if columns.isEmpty then .error (fault "near \"FROM\": syntax error")
    else (positions t columns).map fun ps => t.rows.map (Table.pick ps)

end Database

/-- What stands behind an open file: a database, or none when the file holds something else. -/
abbrev Connection := Option Database

namespace Connection

/-- The cause of a failed query: a cancellation that has happened meanwhile comes first. -/
def blame (f : Failure) : StateM Budget Failure := do
  return if ← Budget.poll then .canceled else f

/-- The database of a connection. -/
def database (c : Connection) : Except Failure Database :=
  match c with
  | some db => .ok db
  | none => .error (fault "file is not a database")

/-- The columns of a table. -/
def columns (c : Connection) (table : String) : StateM Budget (Except Failure (List String)) := do
  let failed := "failed to query columns of " ++ table
  if ← Budget.poll then return .error (.during failed .canceled)
  match c.database with
  | .ok db => return .ok (db.columns table)
  | .error f => return .error (.during failed (← blame f))

/-- The rows a reader with an appetite takes, and whether it refuses one of them. -/
def taken {α : Type} (appetite : Appetite) (rows : List α) : List α × Bool :=
  match appetite with
  | none => (rows, false)
  | some n => (rows.take n, n < rows.length)

/-- One pass over the chosen columns of all rows, each value seen in a given way. -/
def read (view : Stored → Cell) (c : Connection) (table : String) (columns : List String)
    (appetite : Appetite) : StateM Budget Rows := do
  let failed := "failed to read " ++ table
  if ← Budget.poll then return ⟨[], some (.during failed .canceled)⟩
  match c.database.bind (·.select table columns) with
  | .error f => return ⟨[], some (.during failed (← blame f))⟩
  | .ok rows =>
    let (rows, refused) := taken appetite (rows.map (·.map view))
    if refused then return ⟨rows, some (.during failed (← blame refusal))⟩
    else return ⟨rows, none⟩

/-- The connection as a source of facts. -/
def source (c : Connection) : Source Budget where
  columns := c.columns
  read := c.read Stored.cell
  canceled := Budget.poll

end Connection

/-! ### Files -/

/-- The database in a file, by its text: an empty file is a database without tables. -/
def ofFile (text : String) : Connection :=
  if text.isEmpty then some {} else none

/-- The directory that a path stands in. -/
def directoryOf (path : String) : String :=
  match Text.dropEndWhile (· != '/') path.toList with
  | [] => "."
  | cs => String.ofList cs

/-- Whether a path names no file but a database that lasts as long as it is open. -/
def isTransient (path : String) : Bool :=
  path.isEmpty || path == ":memory:"

/-- Opens a file for writing: it must not be a directory, and its own directory must exist.  The
result is the database to write to, where `held` is what the file holds. -/
def openForWriting {m : Type → Type} [Monad m] (disk : Disk m) (path : String) (held : Database) :
    m (Except Failure Database) := do
  if isTransient path then return .ok {}
  let failed : Failure := .during ("failed to create " ++ path) (fault "unable to open database file")
  match ← disk.isDirectory (directoryOf path), ← disk.isDirectory path with
  | .ok true, .ok true => return .error failed
  | .ok true, _ => return .ok held
  | _, _ => return .error failed

/-! ### Copies -/

/-- A value converted to the type of its column for storage. -/
def storedAs (type : Schema.ColumnType) (v : Cell) : Stored :=
  if v.isNull then .null
  else match type with
    | .integer => .integer v.int
    | .real => .ofBinary v.float
    | .boolean => .integer (if v.bool then 1 else 0)
    | .blob => match v.bytes with
      | some bs => .blob bs
      | none => .null
    | _ => .text v.text

/-- The types of columns that a table declares. -/
def typesOf (t : Schema.Table) (columns : List String) : Except Failure (List Schema.ColumnType) :=
  columns.mapM fun name =>
    match t.column? name with
    | some c => .ok c.type
    | none => failBecause ("undeclared column " ++ name)

/-- Copies one table to a database.  When reading fails the table is there but empty. -/
def copyTable (src : Source Budget) (t : Schema.Table) (columns : List String) (db : Database) :
    StateM Budget (Option Failure × Database) := do
  match typesOf t columns with
  | .error f => return (some f, db)
  | .ok types =>
    match db.create t.name columns with
    | .error f => return (some f, db)
    | .ok db =>
      let read ← src.read t.name columns none
      match read.failure with
      | some f => return (some f, db)
      | none =>
        return (none, db.insert t.name (read.rows.map fun row => List.zipWith storedAs types row))

/-- Copies declared tables to a database up to the first failure.  Tables that the source lacks
are left out. -/
def copyTables (src : Source Budget) (db : Database) :
    List Schema.Table → StateM Budget (Option Failure × Database)
  | [] => pure (none, db)
  | t :: ts => do
    match ← src.columns t.name with
    | .error f => return (some f, db)
    | .ok [] => copyTables src db ts
    | .ok columns =>
      let (failure, db) ← copyTable src t columns db
      match failure with
      | some f => return (some (.during ("failed to copy " ++ t.name) f), db)
      | none => copyTables src db ts

/-- Copies the declared tables of a source to a database. -/
def writeFacts (src : Source Budget) (db : Database) : StateM Budget (Option Failure × Database) :=
  copyTables src db Schema.factTables

end TaintFlow.Store.Sqlite
