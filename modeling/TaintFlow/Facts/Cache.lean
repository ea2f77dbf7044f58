import Std.Data.HashMap
import TaintFlow.Facts.Row
import TaintFlow.Schema.Tables
import TaintFlow.Store.Source

/-!
# The fact cache

All declared tables are loaded into memory before an analysis starts.  First every table and column
is checked to exist, then the rows are read, so a store that does not match the declarations never
gives a part of a cache.

## Main definitions

* `Facts.TableFacts` — the rows of a table and an index per indexed column.
* `Facts.TableFacts.select?` — the rows with a given value in an indexed column, in load order.
* `Facts.Cache` — the loaded tables.
* `Facts.load` — loads the declared tables from a source.
-/

namespace TaintFlow.Facts

open Store (Source)

/-- What an index is keyed by. -/
inductive Key where
  | int (n : Int)
  | text (s : String)
  | bool (b : Bool)
  deriving DecidableEq, Repr, Hashable

/-- The key of a field; NULL and fields without an order have none. -/
def Field.key? : Field → Option Key
  | .int n => some (.int n)
  | .text s => some (.text s)
  | .bool b => some (.bool b)
  | _ => none

/-- An index: for every key the positions of its rows, newest first. -/
abbrev Index := Std.HashMap Key (List Nat)

/-- The loaded rows of a table. -/
structure TableFacts where
  table : Schema.Table
  rows : Array Row := #[]
  /-- The index of each indexed column. -/
  indexes : List (String × Index) := []

/-- Enters the row at position `i` into an index. -/
def Index.add (t : Schema.Table) (column : String) (r : Row) (i : Nat) (index : Index) : Index :=
  match (r.field t column).key? with
  | none => index
  | some k => index.insert k (i :: index.getD k [])

namespace TableFacts

/-- A table without rows. -/
def empty (t : Schema.Table) : TableFacts where
  table := t
  indexes := t.indexedColumns.map fun c => (c.name, ∅)

/-- Appends a row. -/
def push (f : TableFacts) (r : Row) : TableFacts where
  table := f.table
  rows := f.rows.push r
  indexes := f.indexes.map fun (column, index) =>
    (column, index.add f.table column r f.rows.size)

/-- A table with the given rows, in load order. -/
def ofRows (t : Schema.Table) (rows : List Row) : TableFacts :=
  rows.foldl push (empty t)

/-- The rows with a given value in an indexed column, in load order; none when the column has no
index. -/
def select? (f : TableFacts) (column : String) (key : Key) : Option (List Row) :=
  match f.indexes.find? (·.1 == column) with
  | none => none
  | some (_, index) => some ((index.getD key []).reverse.filterMap (f.rows[·]?))

end TableFacts

/-- The loaded tables in declared order. -/
structure Cache where
  tables : List TableFacts

namespace Cache

/-- The facts of a table. -/
def table? (c : Cache) (name : String) : Option TableFacts :=
  c.tables.find? (·.table.name == name)

/-- The rows of a declared table in load order. -/
def rows (c : Cache) (t : Schema.Table) : List Row :=
  match c.table? t.name with
  | some f => f.rows.toList
  | none => []

/-- The names of the tables in declared order. -/
def names (c : Cache) : List String :=
  c.tables.map (·.table.name)

/-- A cache of the fact tables without any rows. -/
def empty : Cache :=
  ⟨Schema.factTables.map TableFacts.empty⟩

end Cache

/-- Checks that a source has a table with every declared column. -/
def checkTable {σ : Type} (src : Source σ) (t : Schema.Table) :
    StateM σ (Except Failure Unit) := do
  match ← src.columns t.name with
  | .error f => return .error (.during ("inspecting table " ++ t.name) f)
  | .ok present =>
    if present.isEmpty then return .error (.missing t.name "" none)
    match t.columnNames.find? (! present.contains ·) with
    | some c => return .error (.missing t.name c none)
    | none => return .ok ()

/-- Checks tables one after another up to the first failure. -/
def checkTables {σ : Type} (src : Source σ) : List Schema.Table → StateM σ (Except Failure Unit)
  | [] => pure (.ok ())
  | t :: ts => do
    match ← checkTable src t with
    | .error f => return .error f
    | .ok () => checkTables src ts

/-- Reads all rows of a table. -/
def readTable {σ : Type} (src : Source σ) (t : Schema.Table) :
    StateM σ (Except Failure TableFacts) := do
  if ← src.canceled then return .error .canceled
  let read ← src.read t.name t.columnNames none
  match read.failure with
  | some f => return .error (.during ("reading table " ++ t.name) f)
  | none => return .ok (TableFacts.ofRows t (read.rows.map (Row.ofCells t)))

/-- Reads tables one after another up to the first failure. -/
def readTables {σ : Type} (src : Source σ) :
    List Schema.Table → StateM σ (Except Failure (List TableFacts))
  | [] => pure (.ok [])
  | t :: ts => do
    match ← readTable src t with
    | .error f => return .error f
    | .ok facts =>
      match ← readTables src ts with
      | .error f => return .error f
      | .ok more => return .ok (facts :: more)

/-- Loads the declared tables from a source.  No row is read before all tables have been
checked. -/
def load {σ : Type} (src : Source σ) (tables : List Schema.Table) :
    StateM σ (Except Failure Cache) := do
  match ← checkTables src tables with
  | .error f => return .error f
  | .ok () =>
    match ← readTables src tables with
    | .error f => return .error f
    | .ok facts => return .ok ⟨facts⟩

end TaintFlow.Facts
