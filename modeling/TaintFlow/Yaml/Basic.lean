import TaintFlow.Yaml.Scalar

/-!
# YAML documents

Texts, truth values, lists and mappings, written in blocks indented by two blanks.
-/

namespace TaintFlow

/-- A YAML value. -/
inductive Yaml where
  | text (s : String)
  | bool (b : Bool)
  | list (items : List Yaml)
  | map (members : List (String × Yaml))
  deriving Inhabited

namespace Yaml

/-- Blanks of an indentation. -/
def blanks (n : Nat) : String :=
  String.ofList (List.replicate n ' ')

mutual

/-- A value after a key that stands at an indentation. -/
def afterKey (indent : Nat) : Yaml → String
  | .text s => " " ++ scalar (indent + 2) s ++ "\n"
  | .bool b => if b then " true\n" else " false\n"
  | .list [] => " []\n"
  | .list (item :: items) => "\n" ++ itemLines (indent + 2) (item :: items)
  | .map [] => " \x7b\x7d\n"
  | .map (m :: ms) => "\n" ++ memberLines (indent + 2) (m :: ms)

/-- A value after the dash of an item that stands at an indentation. -/
def afterDash (indent : Nat) : Yaml → String
  | .map ((key, v) :: ms) =>
    " " ++ key ++ ":" ++ afterKey (indent + 2) v ++ memberLines (indent + 2) ms
  | .text s => " " ++ scalar (indent + 2) s ++ "\n"
  | .bool b => if b then " true\n" else " false\n"
  | .list [] => " []\n"
  | .list (item :: items) => "\n" ++ itemLines (indent + 2) (item :: items)
  | .map [] => " \x7b\x7d\n"

/-- The items of a list. -/
def itemLines (indent : Nat) : List Yaml → String
  | [] => ""
  | v :: rest => blanks indent ++ "-" ++ afterDash indent v ++ itemLines indent rest

/-- The members of a mapping. -/
def memberLines (indent : Nat) : List (String × Yaml) → String
  | [] => ""
  | (key, v) :: rest =>
    blanks indent ++ key ++ ":" ++ afterKey indent v ++ memberLines indent rest

end

/-- A document that holds a mapping. -/
def document (members : List (String × Yaml)) : String :=
  memberLines 0 members

/-- A text that is left out when it is empty. -/
def optText (key s : String) : List (String × Yaml) :=
  if s.isEmpty then [] else [(key, .text s)]

/-- A truth value that is left out when it is false. -/
def optBool (key : String) (b : Bool) : List (String × Yaml) :=
  if b then [(key, .bool true)] else []

/-- A list that is left out when it is empty. -/
def optList (key : String) (items : List Yaml) : List (String × Yaml) :=
  if items.isEmpty then [] else [(key, .list items)]

end Yaml

end TaintFlow
