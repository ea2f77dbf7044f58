import TaintFlow.Store.Postgres.Pool

/-!
# Facts on a server

Reads the fact tables of a PostgreSQL database.

## Main definitions

* `Postgres.connect` — checks that a server answers.
* `Postgres.columns`, `Postgres.read` — the columns of a table and its rows.
* `Postgres.source` — the server as a source of facts.
* `Postgres.catalog` — the answers of a server that holds declared tables.
-/

namespace TaintFlow.Store.Postgres

variable {σ : Type}

/-- Lines of a statement, indented on lines of their own. -/
def statement (lines : List String) : String :=
  "\n" ++ String.join (lines.map fun l => "        " ++ l ++ "\n") ++ "    "

/-- The query for the columns of a table. -/
def columnsQuery : String :=
  statement ["SELECT column_name", "FROM information_schema.columns",
    "WHERE table_schema = current_schema() AND table_name = $1", "ORDER BY ordinal_position;"]

/-- Checks that a server answers. -/
def connect (pool : Pool σ) : StateM σ (Except Failure Unit) := do
  return during "failed to ping database" (← pool.ping)

/-- Reads rows one after another up to the first failure. -/
def scanRows {α : Type} (cursor : Cursor) (scanning : String) (f : List Value → Except Failure α) :
    Except Failure (List α) := do
  let items ← cursor.rows.mapM fun row =>
    match cursor.scanFault with
    | some e => .error (.during scanning e)
    | none => f row
  match cursor.endFault with
  | some e => .error (.during "error during row iteration" e)
  | none => .ok items

/-- The columns of a table. -/
def columns (pool : Pool σ) (table : String) : StateM σ (Except Failure (List String)) := do
  match ← pool.query columnsQuery [.text table] with
  | .error f => return .error (.during ("failed to query columns of " ++ table) f)
  | .ok cursor =>
    return scanRows cursor "failed to scan column name" fun row => .ok (row.headD .null).toText

/-- Hands rows over one by one up to the first failure. -/
def deliver (table : String) (width : Nat) (cursor : Cursor) (appetite : Appetite) :
    List (List Value) → Rows
  | [] => ⟨[], cursor.endFault.map (.during "error during row iteration")⟩
  | row :: more =>
    match cursor.valuesFault with
    | some f => ⟨[], some (.during ("failed to decode " ++ table ++ " row") f)⟩
    | none =>
      if row.length != width then
        let found := row.length
        ⟨[], some (.because s!"{table} row has {found} values, expected {width}")⟩
      else if appetite == some 0 then ⟨[], some refusal⟩
      else
        let rest := deliver table width cursor (appetite.map (· - 1)) more
        { rest with rows := row.map Value.cell :: rest.rows }

/-- One pass over the chosen columns of all rows. -/
def read (pool : Pool σ) (table : String) (columns : List String) (appetite : Appetite) :
    StateM σ Rows := do
  match ← pool.query (selectText table columns) [] with
  | .error f => return ⟨[], some (.during ("failed to query " ++ table) f)⟩
  | .ok cursor => return deliver table columns.length cursor appetite cursor.rows

/-- The server as a source of facts. -/
def source (pool : Pool σ) (canceled : StateM σ Bool) : Source σ where
  columns := columns pool
  read := read pool
  canceled := canceled

/-- The answers of a server that holds the given tables, all empty but one. -/
def catalog (tables : List Schema.Table) (table : String) (rows : List (List Value)) (sql : String)
    (args : List Arg) : List (List Value) :=
  if sql == columnsQuery then
    match tables.find? (fun t => args == [.text t.name]) with
    | some t => t.columnNames.map fun c => [.text c]
    | none => []
  else
    match tables.find? (fun t => sql == selectText t.name t.columnNames) with
    | some t => if t.name == table then rows else []
    | none => []

end TaintFlow.Store.Postgres
