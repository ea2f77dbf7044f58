import TaintFlow.Disk
import TaintFlow.Json.Reader
import TaintFlow.Number.Numeral
import TaintFlow.Number.Shortest
import TaintFlow.Text.Case

/-!
# Settings documents

Settings and rules stand in files that hold one JSON object.  Keys count in any case.  A file
whose name ends in `.json` holds floating-point numbers only; in the other kinds whole numbers are
kept exactly.

## Main definitions

* `Document.Kind` — the kinds of files, by the end of their name.
* `Document.parse?` — the object that a text holds.
-/

namespace TaintFlow.Document

/-- The kinds of settings files. -/
inductive Kind where
  /-- All numbers are doubles, and there must be a value. -/
  | json
  /-- Whole numbers are exact, and a blank text is an empty object. -/
  | yaml
  deriving DecidableEq, Repr

/-- What follows the last point of the last part of a path. -/
def extension (path : String) : String :=
  let cs := (path.toList.reverse.takeWhile (· != '/'))
  if cs.contains '.' then String.ofList (cs.takeWhile (· != '.')).reverse else ""

/-- The kind of a file, by the end of its name. -/
def Kind.ofPath? (path : String) : Option Kind :=
  match extension path with
  | "json" => some .json
  | "yaml" => some .yaml
  | "yml" => some .yaml
  | _ => none

/-- Digits and a point, however large or small the number is. -/
def positional : Layout := ⟨-400, 400, false⟩

/-- A number in the form in which its kind of file keeps it, without an exponent.  A number that
is too large for a double is refused. -/
def number? (k : Kind) (t : String) : Option String :=
  match k, Numeral.decimal t with
  | .yaml, .value n => some (toString n)
  | _, _ => (Numeral.binary .double t).toOption.map (·.render positional)

mutual

/-- A value with its numbers in kept form and its keys in lower case. -/
def normal? (k : Kind) : Json → Option Json
  | .num t => (number? k t).map .num
  | .arr l => (normalItems? k l).map .arr
  | .obj l => (normalMembers? k l).map fun ms => .obj (Json.lastWins ms)
  | v => some v

/-- The items of an array. -/
def normalItems? (k : Kind) : List Json → Option (List Json)
  | [] => some []
  | v :: rest => do return (← normal? k v) :: (← normalItems? k rest)

/-- The members of an object. -/
def normalMembers? (k : Kind) : List (String × Json) → Option (List (String × Json))
  | [] => some []
  | (key, v) :: rest => do return (Text.lower key, ← normal? k v) :: (← normalMembers? k rest)

end

/-- An object; `null` counts as the empty one. -/
def object? (k : Kind) : Json → Option Json
  | .null => some (.obj [])
  | .obj l => normal? k (.obj l)
  | _ => none

/-- The object that a text holds. -/
def parse? (k : Kind) (text : String) : Option Json :=
  if k == .yaml && text.toList.all Text.isBlank then some (.obj [])
  else (Json.parse? text).bind (object? k)

end TaintFlow.Document
