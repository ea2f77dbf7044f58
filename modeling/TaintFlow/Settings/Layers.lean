import TaintFlow.Json.Basic
import TaintFlow.Text.Blank
import TaintFlow.Text.Case

/-!
# Layers of settings

A setting is looked up in four layers: the command line, the environment, the settings file and
the defaults.  The first layer that has it wins.  Settings have dotted names; in the file a name
may also be written with its dots as one key.

## Main definitions

* `Layers` — the four layers.
* `Layers.find?` — the value of a name.
* `Layers.names` — the names that have a value in some layer.
* `Layers.merged` — all of them as one object.
-/

namespace TaintFlow

/-- The four layers of settings. -/
structure Layers where
  /-- Settings given on the command line, by their dotted name. -/
  flags : List (String × Json) := []
  /-- The environment. -/
  env : List (String × String) := []
  /-- What the names of environment variables begin with. -/
  envMark : String
  /-- Dotted names without a default that the environment may give. -/
  envOnly : List String := []
  file : Json := .obj []
  defaults : Json := .obj []

namespace Layers

/-- A dotted name. -/
def dotted (path : List String) : String :=
  ".".intercalate path

mutual

/-- The dotted names of all values in a tree of objects. -/
def leaves (before : List String) : Json → List (List String)
  | .obj l => memberLeaves before l
  | _ => [before]

/-- The dotted names of all values below the members of an object. -/
def memberLeaves (before : List String) : List (String × Json) → List (List String)
  | [] => []
  | (k, v) :: rest => leaves (before ++ Text.split '.' k) v ++ memberLeaves before rest

end

/-- The value at a path, where one key may hold several parts of it; longer keys come first.
Every key takes at least one part, so `fuel` is the length of the path. -/
def search (fuel : Nat) (v : Json) (path : List String) : Option Json :=
  match fuel with
  | 0 => none
  | fuel + 1 =>
    (List.range path.length).reverse.findSome? fun i =>
      match v.get (dotted (path.take (i + 1))) with
      | .null => none
      | next => if i + 1 = path.length then some next else search fuel next (path.drop (i + 1))

/-- Whether a proper part of a path leads to a value that is no object. -/
def shadowed (v : Json) : List String → Bool
  | [] => false
  | [_] => false
  | k :: rest =>
    match v.get k with
    | .obj l => shadowed (.obj l) rest
    | .null => false
    | _ => true

/-- The name of the environment variable of a path. -/
def variableName (l : Layers) (path : List String) : String :=
  Text.upper (l.envMark ++ "_" ++ "_".intercalate path)

/-- The environment variable of a path; an empty one counts as unset. -/
def fromEnv? (l : Layers) (path : List String) : Option String :=
  match l.env.find? (·.1 == l.variableName path) with
  | some (_, value) => if value.isEmpty then none else some value
  | none => none

/-- Whether the environment sets a proper part of a path. -/
def hiddenByVariable (l : Layers) (path : List String) : Bool :=
  (List.range (path.length - 1)).any fun i => (l.fromEnv? (path.take (i + 1))).isSome

/-- The value that the file or the defaults give to a path. -/
def stored? (l : Layers) (path : List String) : Option Json :=
  match search path.length l.file path with
  | some v => some v
  | none => if shadowed l.file path then none else search path.length l.defaults path

/-- The value of a path. -/
def find? (l : Layers) (path : List String) : Option Json :=
  match l.flags.find? (·.1 == dotted path) with
  | some (_, v) => some v
  | none =>
    match l.fromEnv? path with
    | some s => some (.str s)
    | none => if l.hiddenByVariable path then none else l.stored? path

/-- The names that have a value in some layer.  A value of the file hides the defaults below its
name. -/
def names (l : Layers) : List (List String) :=
  let inFile := leaves [] l.file
  let inDefaults := (leaves [] l.defaults).filter fun p =>
    !(inFile.any fun q => q.length < p.length && q.isPrefixOf p)
  (l.flags.map fun f => Text.split '.' f.1) ++ l.envOnly.map (Text.split '.') ++ inFile
    ++ inDefaults

/-- An object with the value at a path replaced. -/
def put (path : List String) (value : Json) (tree : Json) : Json :=
  match path with
  | [] => value
  | k :: rest =>
    let old := tree.members.filter (·.1 != k)
    .obj (old ++ [(k, put rest value (tree.get k))])

/-- All settings as one object. -/
def merged (l : Layers) : Json :=
  l.names.foldl (fun tree path =>
    match l.find? path with
    | some v => put path v tree
    | none => tree) (.obj [])

end Layers

end TaintFlow
