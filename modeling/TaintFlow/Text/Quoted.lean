import TaintFlow.Text.Bytes
import TaintFlow.Text.Printable

/-!
# Quoted texts

Messages show a text in double quotes.  Quotes and backslashes are escaped, and so is every
character that is not printable.
-/

namespace TaintFlow.Text

/-- A character inside a quoted text. -/
def quotedChar (c : Char) : String :=
  if c == '"' then "\\\""
  else if c == '\\' then "\\\\"
  else if isPrintable c then String.singleton c
  else match c.toNat with
    | 0x07 => "\\a"
    | 0x08 => "\\b"
    | 0x0C => "\\f"
    | 0x0A => "\\n"
    | 0x0D => "\\r"
    | 0x09 => "\\t"
    | 0x0B => "\\v"
    | n =>
      if n < 0x80 then "\\x" ++ hexNat 2 n
      else if n < 0x10000 then "\\u" ++ hexNat 4 n
      else "\\U" ++ hexNat 8 n

/-- A text in double quotes. -/
def quoted (s : String) : String :=
  "\"" ++ String.join (s.toList.map quotedChar) ++ "\""

end TaintFlow.Text
