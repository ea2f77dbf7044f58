/-!
# JSON values

Numbers keep the text they were written with, so that a number in a text column reads back
verbatim.  The members of an object keep their order, and no key occurs twice.
-/

namespace TaintFlow

/-- A JSON value. -/
inductive Json where
  | null
  | bool (b : Bool)
  /-- A number, by its text. -/
  | num (text : String)
  | str (s : String)
  | arr (items : List Json)
  | obj (members : List (String × Json))
  deriving Inhabited, BEq

namespace Json

/-- The value of a key; a missing key and a value without keys give `null`. -/
def get (v : Json) (key : String) : Json :=
  match v with
  | .obj members =>
    match members.find? (·.1 == key) with
    | some (_, w) => w
    | none => .null
  | _ => .null

/-- Whether a key is present and not `null`. -/
def has (v : Json) (key : String) : Bool :=
  match v.get key with
  | .null => false
  | _ => true

/-- The items of an array. -/
def items : Json → List Json
  | .arr l => l
  | _ => []

/-- The members of an object. -/
def members : Json → List (String × Json)
  | .obj l => l
  | _ => []

/-- The text of a string. -/
def text : Json → String
  | .str s => s
  | _ => ""

/-- The value of a boolean. -/
def truth : Json → Bool
  | .bool b => b
  | _ => false

/-- A whole number. -/
def ofInt (n : Int) : Json :=
  .num (toString n)

/-- A list of texts. -/
def strs (l : List String) : Json :=
  .arr (l.map .str)

/-- A text, or `null` when there is none. -/
def ofText? : Option String → Json
  | some s => .str s
  | none => .null

/-- Keeps of members with equal keys only the last one. -/
def lastWins : List (String × Json) → List (String × Json)
  | [] => []
  | m :: rest => if rest.any (·.1 == m.1) then lastWins rest else m :: lastWins rest

/-- A member that is left out when its condition fails. -/
def opt (present : Bool) (key : String) (v : Json) : List (String × Json) :=
  if present then [(key, v)] else []

end Json

end TaintFlow
