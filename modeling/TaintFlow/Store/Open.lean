import TaintFlow.Store.Backend
import TaintFlow.Store.Fixture
import TaintFlow.Store.Postgres.Address
import TaintFlow.Store.Sqlite.Database

/-!
# Opening a fact store

The address of a store says where its facts are.  A document is read at once, a database file is
opened, and a server is asked whether it answers.
-/

namespace TaintFlow.Store

/-- The store that a document in a file describes. -/
def openDocument {m : Type → Type} [Monad m] (disk : Disk m) (path : String) :
    m (Except Failure Memory) := do
  match ← disk.read path with
  | .ok text => return ofDocument text
  | .error .isDirectory => return .error undecodable
  | .error t => return .error (.during "failed to open fact fixture" (t.opening path))

/-- The database in a file. -/
def openDatabase {m : Type → Type} [Monad m] (disk : Disk m) (path : String) :
    m (Except Failure Sqlite.Connection) := do
  match ← disk.read path with
  | .ok text => return .ok (Sqlite.ofFile text)
  | .error .isDirectory =>
    return .error (.during ("failed to open " ++ path) (Sqlite.fault "unable to open database file"))
  | .error t => return .error (.during ("fact database " ++ path) (t.looking path))

/-- Asks a server whether it answers.  There is no way to a server from here, so the answer is
either the cancellation of the work or that none can be reached. -/
def openServer (address : String) (budget : Budget) : Except Failure (Source Budget) :=
  match Postgres.addressProblem? address with
  | some problem =>
    .error (.during "failed to create connection pool"
      (.because ("cannot parse \x60" ++ address ++ "\x60: " ++ problem)))
  | none =>
    .error (.during "failed to ping database"
      (if budget.exhausted then .canceled else .because "no server can be reached"))

/-- Opens the store at an address. -/
def openSource {m : Type → Type} [Monad m] (disk : Disk m) (home address : String)
    (budget : Budget) : m (Except Failure (Source Budget)) := do
  if address.isEmpty then return failBecause "no fact database given"
  let expand (mark : String) : Except Failure String :=
    during ("failed to expand path " ++ address) (Disk.expandHome home (Backend.path mark address))
  match Backend.ofAddress address with
  | .postgres => return openServer address budget
  | .json =>
    match expand Backend.jsonMark with
    | .error f => return .error f
    | .ok path => return (← openDocument disk path).map Memory.source
  | .sqlite =>
    match expand Backend.sqliteMark with
    | .error f => return .error f
    | .ok path => return (← openDatabase disk path).map Sqlite.Connection.source

end TaintFlow.Store
