import TaintFlow.Text.Blank
import TaintFlow.Text.Case

/-!
# Names in generated code

Tables and columns have names in snake case; the code generated for them uses exported names in
camel case, in which common initialisms are written in capitals.

## Main definitions

* `Schema.exportedName` — `cfg_edges` gives `CFGEdges`.
* `Schema.fieldName` — `cfg_edges` gives `cfgEdges`.
* `Schema.isIdentifier` — lower-case letters, digits and underscores, no digit first.
-/

namespace TaintFlow.Schema

/-- The words that are written in capitals. -/
def initialisms : List String :=
  ["api", "cfg", "id", "orm", "sql", "url", "http", "jsx"]

/-- A word of an exported name: an initialism in capitals, any other word with a capital first
letter. -/
def exportedWord (word : String) : String :=
  if initialisms.contains (Text.lower word) then Text.upper (Text.lower word)
  else match word.toList with
    | [] => ""
    | c :: cs => String.ofList (Text.upperChar c :: cs)

/-- The exported form of a name in snake case. -/
def exportedName (name : String) : String :=
  String.join ((Text.split '_' name).map exportedWord)

/-- The form of a name in snake case that starts with its first word as it is. -/
def fieldName (name : String) : String :=
  match Text.cut? '_' name with
  | none => name
  | some (first, more) => first ++ exportedName more

/-- Whether a character may stand in the name of a table or column. -/
def isNameChar (c : Char) : Bool :=
  c == '_' || ('a' ≤ c && c ≤ 'z') || ('0' ≤ c && c ≤ '9')

/-- Whether a text may be the name of a table or column: lower-case letters, digits and
underscores, no digit first. -/
def isIdentifier (s : String) : Bool :=
  match s.toList with
  | [] => false
  | c :: cs => isNameChar c && !c.isDigit && cs.all isNameChar

end TaintFlow.Schema
