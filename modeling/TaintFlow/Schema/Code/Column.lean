import TaintFlow.Schema.Basic
import TaintFlow.Schema.Code.Basic
import TaintFlow.Schema.Naming

/-!
# Code for columns

How the generated code keeps, reads, shows and compares the values of a column.

## Main definitions

* `Code.columnType` — the type that holds a value.
* `Code.readCode` — reads a value from a row of the store.
* `Code.textCode` — the text form of a value.
* `Code.keyType`, `Code.keyCode` — the value as a key of an index.
* `Code.nullCode?` — the test for a missing value.
-/

namespace TaintFlow.Schema.Code

/-- The type that holds a value that is always there. -/
def plainType : ColumnType → String
  | .integer => "int"
  | .text => "string"
  | .real => "float64"
  | .boolean => "bool"
  | .blob => "[]byte"
  | .unknown _ => ""

/-- The type that holds a value that may be missing, without its package. -/
def nullableType : ColumnType → String
  | .integer => "NullInt64"
  | .text => "NullString"
  | .real => "NullFloat64"
  | .boolean => "NullBool"
  | _ => ""

/-- The field of a nullable type that holds the value. -/
def valueField : ColumnType → String
  | .integer => "Int64"
  | .text => "String"
  | .real => "Float64"
  | .boolean => "Bool"
  | _ => ""

/-- The method of a stored row that gives a value of a type. -/
def rowMethod : ColumnType → String
  | .integer => "Int"
  | .text => "Text"
  | .real => "Float"
  | .boolean => "Bool"
  | .blob => "Bytes"
  | .unknown _ => ""

/-- Whether a value is kept in a nullable type; a missing byte string needs none. -/
def isWrapped (c : Column) : Bool :=
  c.nullable && c.type != .blob

/-- The type that holds a value of a column. -/
def columnType (c : Column) : Fragment :=
  if isWrapped c then [.member "sql" (nullableType c.type)] else [.plain (plainType c.type)]

/-- Reads the value at position `i` of a row of the store. -/
def readCode (c : Column) (i : Nat) : Fragment :=
  if isWrapped c then
    [.member "sql" (nullableType c.type),
      .plain s!"\x7b{valueField c.type}: row.{rowMethod c.type}({i}), Valid: !row.IsNull({i})\x7d"]
  else match c.type with
    | .integer => [.plain s!"int(row.Int({i}))"]
    | .blob => [.member "bytes" "Clone", .plain s!"(row.Bytes({i}))"]
    | type => [.plain s!"row.{rowMethod type}({i})"]

/-- The field of a row that holds the value of a column. -/
def fieldRef (c : Column) : String :=
  "r." ++ exportedName c.name

/-- The value of a column without the wrapping of a nullable type. -/
def valueRef (c : Column) : String :=
  if isWrapped c then fieldRef c ++ "." ++ valueField c.type else fieldRef c

/-- The text form of a value. -/
def textCode (c : Column) : Fragment :=
  match c.type with
  | .integer =>
    if c.nullable then [.member "strconv" "FormatInt", .plain ("(" ++ valueRef c ++ ", 10)")]
    else [.member "strconv" "Itoa", .plain ("(" ++ valueRef c ++ ")")]
  | .real => [.member "strconv" "FormatFloat", .plain ("(" ++ valueRef c ++ ", 'g', -1, 64)")]
  | .boolean => [.member "strconv" "FormatBool", .plain ("(" ++ valueRef c ++ ")")]
  | .blob => [.plain ("string(" ++ valueRef c ++ ")")]
  | _ => [.plain (valueRef c)]

/-- The type of the keys of an index on a column. -/
def keyType (c : Column) : String :=
  plainType c.type

/-- The value of a column as a key of an index. -/
def keyCode (c : Column) : String :=
  if c.nullable && c.type == .integer then "int(" ++ valueRef c ++ ")" else valueRef c

/-- The test for a missing value. -/
def nullCode? (c : Column) : Option String :=
  if !c.nullable then none
  else if c.type == .blob then some (fieldRef c ++ " == nil")
  else some ("!" ++ fieldRef c ++ ".Valid")

/-- The name of the index on a column. -/
def indexField (c : Column) : String :=
  "by" ++ exportedName c.name

end TaintFlow.Schema.Code
