import TaintFlow.Json.Basic
import TaintFlow.Text.Bytes

/-!
# Writing JSON

A document is written on one line or indented by two blanks.  A `Style` says which characters are
escaped beyond the ones the format demands.

## Main definitions

* `Json.Style` — the escapes of a kind of document.
* `Json.compact` — a value on one line without blanks.
* `Json.indented` — a value with one member or item per line.
-/

namespace TaintFlow.Json

/-- The escapes of a kind of document. -/
structure Style where
  /-- Whether the angle brackets, the ampersand and the two line separators are escaped. -/
  markup : Bool
  /-- Whether backspace and form feed have escapes of one letter. -/
  shortControls : Bool

/-- Only what the format demands is escaped. -/
def Style.plain : Style := ⟨false, false⟩

/-- Safe for embedding in markup. -/
def Style.embedded : Style := ⟨true, true⟩

/-- Safe for embedding in markup, with numeric escapes for rare control characters. -/
def Style.stored : Style := ⟨true, false⟩

/-- A numeric escape. -/
def unitEscape (n : Nat) : String :=
  "\\u" ++ Text.hexNat 4 n

/-- A character inside a string. -/
def Style.char (st : Style) (c : Char) : String :=
  if c == '"' then "\\\""
  else if c == '\\' then "\\\\"
  else if c == '\n' then "\\n"
  else if c == '\r' then "\\r"
  else if c == '\t' then "\\t"
  else if st.shortControls && c == '\x08' then "\\b"
  else if st.shortControls && c == '\x0c' then "\\f"
  else if c.toNat < 0x20 then unitEscape c.toNat
  else if st.markup && (c == '<' || c == '>' || c == '&' || c == '\u2028' || c == '\u2029') then
    unitEscape c.toNat
  else String.singleton c

/-- A string with its quotes. -/
def Style.quote (st : Style) (s : String) : String :=
  "\"" ++ String.join (s.toList.map st.char) ++ "\""

mutual

/-- A value on one line without blanks. -/
def compact (st : Style) : Json → String
  | .null => "null"
  | .bool b => if b then "true" else "false"
  | .num t => t
  | .str s => st.quote s
  | .arr l => "[" ++ ",".intercalate (compactItems st l) ++ "]"
  | .obj l => "\x7b" ++ ",".intercalate (compactMembers st l) ++ "\x7d"

/-- The items of an array. -/
def compactItems (st : Style) : List Json → List String
  | [] => []
  | v :: rest => compact st v :: compactItems st rest

/-- The members of an object. -/
def compactMembers (st : Style) : List (String × Json) → List String
  | [] => []
  | (k, v) :: rest => (st.quote k ++ ":" ++ compact st v) :: compactMembers st rest

end

/-- A new line with an indentation of `depth` levels. -/
def newLine (depth : Nat) : String :=
  "\n" ++ String.ofList (List.replicate (2 * depth) ' ')

/-- Parts in brackets, one per line; no parts at all give the bare brackets. -/
def bracket (depth : Nat) (start stop : String) (parts : List String) : String :=
  if parts.isEmpty then start ++ stop
  else start ++ newLine (depth + 1) ++ ("," ++ newLine (depth + 1)).intercalate parts
    ++ newLine depth ++ stop

mutual

/-- A value with one member or item per line, indented by two blanks per level. -/
def indented (st : Style) (depth : Nat) : Json → String
  | .null => "null"
  | .bool b => if b then "true" else "false"
  | .num t => t
  | .str s => st.quote s
  | .arr l => bracket depth "[" "]" (indentedItems st (depth + 1) l)
  | .obj l => bracket depth "\x7b" "\x7d" (indentedMembers st (depth + 1) l)

/-- The items of an array. -/
def indentedItems (st : Style) (depth : Nat) : List Json → List String
  | [] => []
  | v :: rest => indented st depth v :: indentedItems st depth rest

/-- The members of an object. -/
def indentedMembers (st : Style) (depth : Nat) : List (String × Json) → List String
  | [] => []
  | (k, v) :: rest =>
    (st.quote k ++ ": " ++ indented st depth v) :: indentedMembers st depth rest

end

end TaintFlow.Json
