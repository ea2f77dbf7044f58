import TaintFlow.Json.Basic
import TaintFlow.Number.Numeral
import TaintFlow.Number.Shortest
import TaintFlow.Text.Bytes

/-!
# Stored values

A store holds values of several kinds; a reader asks for them as an integer, a number, a text, a
truth value or bytes.  A value of another kind is converted where that loses nothing in practice,
and reads as zero otherwise.

## Main definitions

* `Store.Value` — what a store may hold.
* `Store.Cell` — all the ways in which a reader may see one value.
* `Store.Value.cell` — the conversions.
-/

namespace TaintFlow.Store

/-- A stored value. -/
inductive Value where
  | null
  /-- An integer of at most 64 bits. -/
  | int (n : Int)
  /-- A double. -/
  | float (x : Binary)
  /-- A number of single precision. -/
  | single (x : Binary)
  /-- A number in the text of a document, by that text. -/
  | number (text : String)
  | bool (b : Bool)
  | text (s : String)
  | bytes (bs : List UInt8)
  /-- A value of a kind that has no conversion, such as a list. -/
  | composite
  deriving DecidableEq, Repr, Inhabited

/-- The ways in which a reader may see one value. -/
structure Cell where
  isNull : Bool
  int : Int
  float : Binary
  text : String
  bool : Bool
  bytes : Option (List UInt8)
  deriving DecidableEq, Repr, Inhabited

namespace Value

/-- A member of a document as a value. -/
def ofJson : Json → Value
  | .null => .null
  | .bool b => .bool b
  | .num t => .number t
  | .str s => .text s
  | .arr _ => .composite
  | .obj _ => .composite

/-- The value as an integer: a number is truncated toward zero, a text must be a numeral. -/
def toInt : Value → Int
  | .int n => n
  | .float x => x.truncate
  | .single x => x.truncate
  | .number t =>
    match Numeral.decimal t with
    | .value n => n
    | _ => ((Numeral.binary .double t).getD .zero).truncate
  | .bool b => if b then 1 else 0
  | .text s => (Numeral.decimal (Text.trim s)).getD 0
  | _ => 0

/-- The value as a floating-point number. -/
def toFloat : Value → Binary
  | .float x => x
  | .single x => x.widen
  | .number t => (Numeral.binary .double t).getD .zero
  | .text s => (Numeral.binary .double (Text.trim s)).getD .zero
  | .null => .zero
  | v => Binary.ofInt v.toInt

/-- The value as a text. -/
def toText : Value → String
  | .text s => s
  | .bytes bs => Text.ofBytes bs
  | .null => ""
  | .number t => t
  | .bool b => if b then "true" else "false"
  | .float x => x.text
  | v => toString v.toInt

/-- The value as a truth value. -/
def toBool : Value → Bool
  | .bool b => b
  | .text s => (Numeral.truth? (Text.trim s)).getD false
  | .null => false
  | v => v.toInt != 0

/-- The value as bytes. -/
def toBytes? : Value → Option (List UInt8)
  | .bytes bs => some bs
  | .text s => some (Text.bytes s)
  | _ => none

/-- All the ways in which a reader may see a value. -/
def cell (v : Value) : Cell where
  isNull := v == .null
  int := v.toInt
  float := v.toFloat
  text := v.toText
  bool := v.toBool
  bytes := v.toBytes?

end Value

end TaintFlow.Store
