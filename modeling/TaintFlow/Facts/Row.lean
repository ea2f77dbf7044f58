import TaintFlow.Schema.Basic
import TaintFlow.Store.Value

/-!
# Fact rows

A fact is a row of a declared table: one field per column, converted to the column's storage
type.  A column that may be NULL keeps that apart from an empty value.

## Main definitions

* `Facts.Field` — the value of a column.
* `Facts.Row` — a row with the table it belongs to.
* `Facts.Row.text?` — the text of a column; none for NULL and for columns that do not exist.
* `Facts.Row.location` — where the row points in the analysed code.
-/

namespace TaintFlow.Facts

/-- The value of a column in a loaded row. -/
inductive Field where
  | null
  | int (n : Int)
  | text (s : String)
  | bool (b : Bool)
  | real (x : Binary)
  | blob (bs : List UInt8)
  deriving DecidableEq, Repr, Inhabited

namespace Field

/-- The text of a field; none for NULL. -/
def text? : Field → Option String
  | .null => none
  | .int n => some (toString n)
  | .text s => some s
  | .bool b => some (if b then "true" else "false")
  | .real x => some x.text
  | .blob bs => some (Text.ofBytes bs)

/-- The integer of a field, zero when it holds none. -/
def toInt : Field → Int
  | .int n => n
  | _ => 0

/-- The text of a text field, empty when it holds none. -/
def toText : Field → String
  | .text s => s
  | _ => ""

/-- The truth value of a field, false when it holds none. -/
def toBool : Field → Bool
  | .bool b => b
  | _ => false

/-- A stored value converted to the type of its column. -/
def ofCell (c : Schema.Column) (v : Store.Cell) : Field :=
  if c.nullable && v.isNull then .null
  else match c.type with
    | .integer => .int v.int
    | .text => .text v.text
    | .boolean => .bool v.bool
    | .real => .real v.float
    | .blob => match v.bytes with
      | some bs => .blob bs
      | none => if c.nullable then .null else .blob []
    | .unknown _ => .null

end Field

/-- A place in the analysed code; line and column are zero when they are not known. -/
structure Location where
  file : String := ""
  line : Int := 0
  column : Int := 0
  deriving DecidableEq, Repr, Inhabited

/-- A row: its fields in the order of the declared columns. -/
structure Row where
  fields : List Field
  deriving DecidableEq, Repr, Inhabited

namespace Row

/-- A row converted column by column. -/
def ofCells (t : Schema.Table) (cells : List Store.Cell) : Row :=
  ⟨(t.columns.zip cells).map fun (c, v) => Field.ofCell c v⟩

/-- The field of a column; NULL when the table does not declare it. -/
def field (t : Schema.Table) (r : Row) (column : String) : Field :=
  match t.columns.findIdx? (·.name == column) with
  | some i => r.fields.getD i .null
  | none => .null

/-- The text of a column; none for NULL and for columns that do not exist. -/
def text? (t : Schema.Table) (r : Row) (column : String) : Option String :=
  (r.field t column).text?

/-- Where the row points in the analysed code. -/
def location (t : Schema.Table) (r : Row) : Location where
  file := (r.field t t.location.file).toText
  line := (r.field t t.location.line).toInt
  column := (r.field t t.location.column).toInt

end Row

end TaintFlow.Facts
