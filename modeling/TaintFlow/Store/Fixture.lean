import TaintFlow.Json.Reader
import TaintFlow.Schema.Tables
import TaintFlow.Store.Memory
import TaintFlow.Text.Order

/-!
# Fact documents

A document holds the rows of each table: an object with a list of objects per table.  Tables that
the document leaves out are empty; a table or column that is not declared is an error.

## Main definitions

* `Store.documentRows?` — the rows of a document, tables in the order of their names.
* `Store.ofDocument` — the store that a document describes.
-/

namespace TaintFlow.Store

/-- A row given by column names. -/
abbrev NamedRow := List (String × Value)

/-- A row of a document; `null` stands for a row without values. -/
def namedRow? : Json → Option NamedRow
  | .null => some []
  | .obj members => some (members.map fun (k, v) => (k, Value.ofJson v))
  | _ => none

/-- The rows of a table in a document; `null` stands for none. -/
def namedRows? : Json → Option (List NamedRow)
  | .null => some []
  | .arr items => items.mapM namedRow?
  | _ => none

/-- The rows of a document, tables in the order of their names; `null` stands for no tables. -/
def documentRows? : Json → Option (List (String × List NamedRow))
  | .null => some []
  | .obj members =>
    (sortBy (fun a b => compareText a.1 b.1) members).mapM fun (name, v) => do
      return (name, ← namedRows? v)
  | _ => none

/-- Inserts the rows of a table, the first being row number `n`. -/
def insertRows (table : String) (n : Nat) (m : Memory) : List NamedRow → Except Failure Memory
  | [] => .ok m
  | row :: rows =>
    match m.insert table row with
    | .error e => .error (.during s!"fixture row {n}" (.because e.text))
    | .ok m => insertRows table (n + 1) m rows

/-- The failure of a document that cannot be decoded. -/
def undecodable : Failure := .because "failed to decode fact fixture"

/-- The store that a document describes. -/
def ofJson (doc : Json) : Except Failure Memory :=
  match documentRows? doc with
  | none => .error undecodable
  | some tables =>
    tables.foldlM (fun m (name, rows) => insertRows name 0 m rows)
      (Memory.ofTables Schema.factTables)

/-- The store that the text of a document describes; what follows the document is ignored. -/
def ofDocument (text : String) : Except Failure Memory :=
  match Json.parseFirst? text with
  | none => .error undecodable
  | some doc => ofJson doc

end TaintFlow.Store
