import TaintFlow.Schema.Basic
import TaintFlow.Store.Select
import TaintFlow.Store.Source

/-!
# Connections to a server

What the store asks of a database server, and a server that follows a script and keeps a log of
the calls it gets.

## Main definitions

* `Postgres.Arg` — the arguments of statements.
* `Postgres.Cursor` — the rows that answer a query, and what goes wrong while they are read.
* `Postgres.Pool` — the operations of a server.
* `Postgres.Call` — a call as it stands in a log.
* `Postgres.Script`, `Postgres.Script.pool` — a server that follows a script.
-/

namespace TaintFlow.Store.Postgres

/-- An argument of a statement. -/
inductive Arg where
  | text (s : String)
  | int (n : Int)
  | bool (b : Bool)
  /-- The time of the call. -/
  | now
  deriving DecidableEq, Repr

/-- The rows that answer a query, and what goes wrong while they are read. -/
structure Cursor where
  rows : List (List Value) := []
  /-- Why no row can be scanned into typed places. -/
  scanFault : Option Failure := none
  /-- Why no row can be decoded into values. -/
  valuesFault : Option Failure := none
  /-- Why the rows end early. -/
  endFault : Option Failure := none

/-- The operations of a server. -/
structure Pool (σ : Type) where
  ping : StateM σ (Except Failure Unit)
  query : (sql : String) → List Arg → StateM σ (Except Failure Cursor)
  exec : (sql : String) → List Arg → StateM σ (Except Failure Unit)
  start : StateM σ (Except Failure Unit)
  /-- Copies rows to columns of a table and gives the number of rows copied. -/
  copy : (table columns : List String) → (rows : List (List Arg)) → StateM σ (Except Failure Int)
  commit : StateM σ (Except Failure Unit)
  /-- Takes back what has been done since the transaction started; a failure is ignored. -/
  rollback : StateM σ Unit

/-- A call as it stands in a log. -/
inductive Call where
  | query (sql : String) (args : List Arg)
  | exec (sql : String) (args : List Arg)
  | start
  | copy (table columns : List String) (rows : List (List Arg))
  | commit
  | rollback
  deriving DecidableEq, Repr

/-- The steps at which a scripted server may fail. -/
inductive Step where
  | ping
  | query
  | scan
  | values
  | rows
  | start
  | exec
  | copy
  | commit
  deriving DecidableEq, Repr

/-- The name of a step. -/
def Step.name : Step → String
  | .ping => "ping"
  | .query => "query"
  | .scan => "scan"
  | .values => "values"
  | .rows => "rows"
  | .start => "begin"
  | .exec => "exec"
  | .copy => "copy"
  | .commit => "commit"

/-- The step with a given name. -/
def Step.ofName? (name : String) : Option Step :=
  [Step.ping, .query, .scan, .values, .rows, .start, .exec, .copy, .commit].find? (·.name == name)

/-- What a scripted server does. -/
structure Script where
  /-- The step that fails. -/
  fault : Option Step := none
  /-- The rows that answer a query. -/
  answer : (sql : String) → List Arg → List (List Value) := fun _ _ => []
  /-- How many rows a copy claims to have copied; the real number when there is none. -/
  count : Option Int := none

/-- The calls that a server has got, newest first. -/
abbrev Log := List Call

namespace Script

/-- The failure of a step, if the script has one. -/
def faultAt (s : Script) (step : Step) : Option Failure :=
  if s.fault == some step then some (.because (step.name ++ " failed")) else none

/-- A result that fails at a step when the script says so. -/
def result {α : Type} (s : Script) (step : Step) (a : α) : Except Failure α :=
  match s.faultAt step with
  | some f => .error f
  | none => .ok a

/-- The cursor over the rows that answer a query. -/
def cursor (s : Script) (sql : String) (args : List Arg) : Cursor where
  rows := s.answer sql args
  scanFault := s.faultAt .scan
  valuesFault := s.faultAt .values
  endFault := s.faultAt .rows

/-- A server that follows the script and logs the calls. -/
def pool (s : Script) : Pool Log where
  ping := return s.result .ping ()
  query sql args log := (s.result .query (s.cursor sql args), .query sql args :: log)
  exec sql args log := (s.result .exec (), .exec sql args :: log)
  start log := (s.result .start (), .start :: log)
  copy table columns rows log :=
    (s.result .copy (s.count.getD rows.length), .copy table columns rows :: log)
  commit log := (s.result .commit (), .commit :: log)
  rollback log := ((), .rollback :: log)

end Script

end TaintFlow.Store.Postgres
