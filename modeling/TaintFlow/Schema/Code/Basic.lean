import TaintFlow.Text.Blank

/-!
# Generated source files

A generated file is a list of declarations, so that the names it declares and the packages it uses
can be read off it.  Its text is in the canonical layout: tabs for indentation, one blank line
between declarations, and the types of the fields of a record in one column.

## Main definitions

* `Code.Piece`, `Code.Fragment`, `Code.Line` — code that may refer to members of packages.
* `Code.Decl` — a declaration.
* `Code.File` — a file; `Code.File.text` is its text.
* `Code.File.globals`, `Code.File.members` — the names that a file declares.
* `Code.File.uses` — whether a file refers to a package.
-/

namespace TaintFlow.Schema.Code

/-- A piece of code. -/
inductive Piece where
  | plain (text : String)
  /-- A member of a package that is imported. -/
  | member (package name : String)
  deriving DecidableEq, Repr

/-- The text of a piece. -/
def Piece.text : Piece → String
  | .plain s => s
  | .member package name => package ++ "." ++ name

/-- Whether a piece refers to a package. -/
def Piece.uses (package : String) : Piece → Bool
  | .plain _ => false
  | .member p _ => p == package

/-- Code on one line. -/
abbrev Fragment := List Piece

/-- The text of a fragment. -/
def Fragment.text (f : Fragment) : String :=
  String.join (f.map Piece.text)

/-- Whether a fragment refers to a package. -/
def Fragment.uses (package : String) (f : Fragment) : Bool :=
  f.any (·.uses package)

/-- A line of a body with its depth of indentation. -/
structure Line where
  depth : Nat
  code : Fragment
  deriving DecidableEq, Repr

/-- The text of a line. -/
def Line.text (l : Line) : String :=
  if l.code.isEmpty then "\n" else Text.times l.depth "\t" ++ Fragment.text l.code ++ "\n"

/-- A field of a record type. -/
structure Field where
  name : String
  type : Fragment
  deriving DecidableEq, Repr

/-- The value a method belongs to: how it is named and passed, and its type. -/
structure Receiver where
  binder : String
  type : String
  deriving DecidableEq, Repr

/-- A declaration. -/
inductive Decl where
  /-- A line that separates parts of a file. -/
  | heading (title : String)
  /-- A variable that holds a list of texts. -/
  | texts (name : String) (values : List String)
  /-- A record type. -/
  | record (doc : List String) (name : String) (fields : List Field)
  /-- A function, or a method when it has a receiver. -/
  | routine (doc : List String) (receiver : Option Receiver) (name : String)
      (signature : Fragment) (body : List Line)
  deriving DecidableEq, Repr

/-- The lines of a documentation comment. -/
def docText (doc : List String) : String :=
  String.join (doc.map fun l => "// " ++ l ++ "\n")

/-- The fields of a record with their types in one column. -/
def fieldsText (fields : List Field) : String :=
  let width := (fields.map (·.name.length)).foldl max 0
  String.join (fields.map fun f =>
    "\t" ++ Text.padRight width f.name ++ " " ++ Fragment.text f.type ++ "\n")

/-- The text of a declaration. -/
def Decl.text : Decl → String
  | .heading title => "// ---- " ++ title ++ " ----\n"
  | .texts name values =>
    "var " ++ name ++ " = []string\x7b" ++ ", ".intercalate (values.map fun v => "\"" ++ v ++ "\"")
      ++ "\x7d\n"
  | .record doc name fields =>
    docText doc ++ "type " ++ name ++ " struct \x7b\n" ++ fieldsText fields ++ "\x7d\n"
  | .routine doc receiver name signature body =>
    docText doc ++ "func "
      ++ (match receiver with
        | some r => "(" ++ r.binder ++ r.type ++ ") "
        | none => "")
      ++ name ++ Fragment.text signature ++ " \x7b\n" ++ String.join (body.map Line.text) ++ "\x7d\n"

/-- The name that a declaration adds to the package. -/
def Decl.global? : Decl → Option String
  | .texts name _ => some name
  | .record _ name _ => some name
  | .routine _ none name _ _ => some name
  | _ => none

/-- The names that a declaration adds to a type: the fields of its record or a method. -/
def Decl.membersOf (type : String) : Decl → List String
  | .record _ name fields => if name == type then fields.map (·.name) else []
  | .routine _ (some r) name _ _ => if r.type == type then [name] else []
  | _ => []

/-- Whether a declaration refers to a package. -/
def Decl.uses (package : String) : Decl → Bool
  | .record _ _ fields => fields.any fun f => Fragment.uses package f.type
  | .routine _ _ _ signature body =>
    Fragment.uses package signature || body.any fun l => Fragment.uses package l.code
  | _ => false

/-- A generated file. -/
structure File where
  generator : String
  package : String
  /-- The paths of imported packages, in groups. -/
  imports : List (List String)
  decls : List Decl
  deriving DecidableEq, Repr

namespace File

/-- The import block. -/
def importText (groups : List (List String)) : String :=
  "import (\n"
    ++ "\n".intercalate (groups.map fun g => String.join (g.map fun p => "\t\"" ++ p ++ "\"\n"))
    ++ ")\n"

/-- The text of a file. -/
def text (f : File) : String :=
  "// Code generated by " ++ f.generator ++ ". DO NOT EDIT.\n\npackage " ++ f.package ++ "\n\n"
    ++ importText f.imports ++ String.join (f.decls.map fun d => "\n" ++ d.text)

/-- The names that a file adds to its package. -/
def globals (f : File) : List String :=
  f.decls.filterMap Decl.global?

/-- The names of the fields and methods of a type. -/
def members (f : File) (type : String) : List String :=
  f.decls.flatMap (Decl.membersOf type)

/-- Whether a file refers to a package by its name. -/
def uses (f : File) (package : String) : Bool :=
  f.decls.any (·.uses package)

/-- Whether a file imports a path. -/
def importsPath (f : File) (path : String) : Bool :=
  f.imports.any (·.contains path)

end File

end TaintFlow.Schema.Code
