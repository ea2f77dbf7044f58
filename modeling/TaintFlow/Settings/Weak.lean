import TaintFlow.Json.Basic
import TaintFlow.Number.Duration
import TaintFlow.Number.Numeral
import TaintFlow.Text.Blank

/-!
# Lenient decoding

Settings may be given in a form near to the wanted one: a number for a text, a text for a number,
one value for a list.  A missing value is zero, empty or false.  What has no such reading is
refused with `none`.

## Main definitions

* `Weak.text?`, `Weak.int?`, `Weak.bool?`, `Weak.duration?` — single values.
* `Weak.list?` — lists; one value counts as a list of one, and a text as its parts between commas.
* `Weak.object?` — objects.
-/

namespace TaintFlow.Weak

/-- A text. -/
def text? : Json → Option String
  | .null => some ""
  | .str s => some s
  | .num t => some t
  | .bool b => some (if b then "1" else "0")
  | _ => none

/-- A number without its fraction. -/
def numberInt (t : String) : Int :=
  match Numeral.decimal t with
  | .value n => n
  | _ => ((Numeral.binary .double t).getD .zero).truncate

/-- A whole number. -/
def int? : Json → Option Int
  | .null => some 0
  | .num t => some (numberInt t)
  | .bool b => some (if b then 1 else 0)
  | .str s => if s.isEmpty then some 0 else (Numeral.general s).toOption
  | _ => none

/-- A truth value. -/
def bool? : Json → Option Bool
  | .null => some false
  | .bool b => some b
  | .num t => some (!((Numeral.binary .double t).getD .zero).isZero)
  | .str s => if s.isEmpty then some false else Numeral.truth? s
  | _ => none

/-- A duration: a text with units or a number of nanoseconds. -/
def duration? : Json → Option Duration
  | .str s => (Duration.read s).toOption
  | v => int? v

/-- The values of a list. -/
def values : Json → List Json
  | .null => []
  | .arr l => l
  | .obj [] => []
  | .str s => if s.isEmpty then [] else (Text.split ',' s).map .str
  | v => [v]

/-- A list of values that each have a reading. -/
def list? {α : Type} (item? : Json → Option α) (v : Json) : Option (List α) :=
  (values v).mapM item?

/-- An object; a missing one has no members. -/
def object? : Json → Option Json
  | .null => some (.obj [])
  | .obj l => some (.obj l)
  | _ => none

end TaintFlow.Weak
