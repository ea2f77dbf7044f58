import TaintFlow.Text.Blank

/-!
# Query texts

The query that reads chosen columns of a whole table.  Names are always quoted.
-/

namespace TaintFlow.Store

/-- The characters of a name inside quotes: a quote is written twice and NUL is left out. -/
def quotedChars : List Char → List Char
  | [] => []
  | c :: cs =>
    if c == '"' then '"' :: '"' :: quotedChars cs
    else if c == '\x00' then quotedChars cs
    else c :: quotedChars cs

/-- A name as it stands in a query. -/
def quotedName (name : String) : String :=
  "\"" ++ String.ofList (quotedChars name.toList) ++ "\""

/-- The query that reads columns of all rows of a table. -/
def selectText (table : String) (columns : List String) : String :=
  "SELECT " ++ Text.join ", " (columns.map quotedName) ++ " FROM " ++ quotedName table

end TaintFlow.Store
