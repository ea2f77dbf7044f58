import TaintFlow.Schema.Basic
import TaintFlow.Store.Source

/-!
# The store in memory

Every table is a list of column names and a list of rows with one value per column.

## Main definitions

* `Store.Memory` — the store; `Memory.ofTables` holds the given tables, empty.
* `Memory.insert` — appends a row given by column names; columns not named are NULL.
* `Memory.dropTable`, `Memory.dropColumn` — remove what an extractor never created.
* `Memory.source` — the store as a source of facts.
-/

namespace TaintFlow.Store

/-- A table in memory. -/
structure MemoryTable where
  columns : List String
  rows : Array (List Value)
  deriving DecidableEq, Repr, Inhabited

/-- A store in memory: tables by name. -/
structure Memory where
  tables : List (String × MemoryTable)
  deriving DecidableEq, Repr, Inhabited

/-- Why a row cannot be inserted or a table not be read. -/
inductive MemoryError where
  | insertUnknownTable (table : String)
  | insertUnknownColumn (table column : String)
  | noTable (table : String)
  | noColumn (table column : String)
  deriving DecidableEq, Repr

/-- The wording of an error. -/
def MemoryError.text : MemoryError → String
  | .insertUnknownTable t => "insert into unknown table " ++ t
  | .insertUnknownColumn t c => "insert into " ++ t ++ ": unknown column " ++ c
  | .noTable t => "no such table: " ++ t
  | .noColumn t c => "no such column: " ++ t ++ "." ++ c

namespace Memory

/-- The table with a given name. -/
def table? (m : Memory) (name : String) : Option MemoryTable :=
  (m.tables.find? (·.1 == name)).map (·.2)

/-- Sets the table with a given name. -/
def setTable (m : Memory) (name : String) (t : MemoryTable) : Memory :=
  if m.tables.any (·.1 == name) then
    ⟨m.tables.map fun e => if e.1 == name then (name, t) else e⟩
  else ⟨m.tables ++ [(name, t)]⟩

/-- A store with the given tables, empty.  Of two tables with one name the later one counts. -/
def ofTables (tables : List Schema.Table) : Memory :=
  tables.foldl (fun m t => m.setTable t.name ⟨t.columnNames, #[]⟩) ⟨[]⟩

/-- The value given for a column, NULL when there is none. -/
def valueOf (values : List (String × Value)) (column : String) : Value :=
  ((values.find? (·.1 == column)).map (·.2)).getD .null

/-- Appends a row; columns without a value are NULL. -/
def insert (m : Memory) (table : String) (values : List (String × Value)) :
    Except MemoryError Memory :=
  match m.table? table with
  | none => .error (.insertUnknownTable table)
  | some t =>
    match values.find? (fun v => !t.columns.contains v.1) with
    | some (column, _) => .error (.insertUnknownColumn table column)
    | none => .ok (m.setTable table { t with rows := t.rows.push (t.columns.map (valueOf values)) })

/-- Removes a table. -/
def dropTable (m : Memory) (table : String) : Memory :=
  ⟨m.tables.filter (·.1 != table)⟩

/-- Removes a column and its values from a table. -/
def dropColumn (m : Memory) (table column : String) : Memory :=
  match m.table? table with
  | none => m
  | some t =>
    match t.columns.findIdx? (· == column) with
    | none => m
    | some i => m.setTable table ⟨t.columns.eraseIdx i, t.rows.map (·.eraseIdx i)⟩

/-- The columns of a table; none when it does not exist. -/
def columns (m : Memory) (table : String) : List String :=
  ((m.table? table).map (·.columns)).getD []

/-- The positions of the chosen columns. -/
def positions (table : String) (t : MemoryTable) (columns : List String) :
    Except MemoryError (List Nat) :=
  columns.mapM fun c =>
    match t.columns.findIdx? (· == c) with
    | some i => .ok i
    | none => .error (.noColumn table c)

/-- The values of a row at the given positions. -/
def pick (positions : List Nat) (row : List Value) : List Value :=
  positions.map fun i => row.getD i .null

/-- How many rows are handed over between two checks for cancellation. -/
def checkInterval : Nat := 256

/-- Hands rows over one by one, the first being row number `n`.  Before every
`checkInterval`-th row there is a check for cancellation. -/
def deliver (cells : List Value → List Cell) (n : Nat) (appetite : Appetite) :
    List (List Value) → StateM Budget Rows
  | [] => pure ⟨[], none⟩
  | row :: more => do
    let stop ← if n % checkInterval == 0 then Budget.poll else pure false
    if stop then return ⟨[], some .canceled⟩
    match appetite with
    | some 0 => return ⟨[], some refusal⟩
    | _ =>
      let rest ← deliver cells (n + 1) (appetite.map (· - 1)) more
      return { rest with rows := cells row :: rest.rows }

/-- One pass over the chosen columns of all rows. -/
def read (m : Memory) (table : String) (columns : List String) (appetite : Appetite) :
    StateM Budget Rows :=
  match m.table? table with
  | none => pure ⟨[], some (.because (MemoryError.noTable table).text)⟩
  | some t =>
    match positions table t columns with
    | .error e => pure ⟨[], some (.because e.text)⟩
    | .ok ps => deliver (fun row => (pick ps row).map Value.cell) 0 appetite t.rows.toList

/-- The store as a source of facts. -/
def source (m : Memory) : Source Budget where
  columns table := pure (.ok (m.columns table))
  read := m.read
  canceled := Budget.poll

end Memory

end TaintFlow.Store
