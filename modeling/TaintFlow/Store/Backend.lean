import TaintFlow.Text.Blank
import TaintFlow.Text.Case

/-!
# Kinds of fact stores

The address of a fact store says what kind of store it is: a server, a document or a database
file.
-/

namespace TaintFlow.Store

/-- The kinds of fact stores. -/
inductive Backend where
  /-- A PostgreSQL server. -/
  | postgres
  /-- A JSON document. -/
  | json
  /-- A SQLite database file. -/
  | sqlite
  deriving DecidableEq, Repr, Inhabited

namespace Backend

/-- The name of a kind. -/
def name : Backend → String
  | .postgres => "postgres"
  | .json => "json"
  | .sqlite => "sqlite"

/-- The mark in front of the path of a document. -/
def jsonMark : String := "json:"

/-- The mark that may stand in front of the path of a database file. -/
def sqliteMark : String := "sqlite:"

/-- The kind of store at an address.  A server's address is recognised first, then a document by
its mark or the end of its name in any case; all else is a database file. -/
def ofAddress (address : String) : Backend :=
  if Text.startsWith address "postgres://" || Text.startsWith address "postgresql://" then
    .postgres
  else if Text.startsWith address jsonMark || Text.endsWith (Text.lower address) ".json" then
    .json
  else .sqlite

/-- An address without a mark in front of it. -/
def path (mark address : String) : String :=
  if Text.startsWith address mark then String.ofList (address.toList.drop mark.length)
  else address

end Backend

end TaintFlow.Store
