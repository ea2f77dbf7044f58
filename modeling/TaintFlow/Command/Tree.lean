import TaintFlow.Command.Flag
import TaintFlow.Failure
import TaintFlow.Text.Case

/-!
# Commands

The commands of a program form a tree.  The arguments that are no flags lead from the root to a
command; the flags may stand anywhere among them.

## Main definitions

* `Spec` — what a command is called, what flags it takes and what it does.
* `Tree` — a command and the commands below it.
* `Tree.locate` — the command that a command line names, and the rest of the line.
* `Tree.suggestions` — the commands that a misspelt name may stand for.
-/

namespace TaintFlow.Command

/-- How many arguments a command takes. -/
inductive Arity where
  /-- Any number; a program with commands takes none itself. -/
  | any
  | none
  | atMost (n : Nat)
  deriving DecidableEq, Repr

/-- A command that does something of type `α`. -/
structure Spec (α : Type) where
  name : String
  /-- What follows the name in a usage line. -/
  argsUsage : String := ""
  short : String := ""
  long : String := ""
  flags : List Flag := []
  /-- Flags that the commands below take as well. -/
  sharedFlags : List Flag := []
  arity : Arity := .any
  /-- What the command does; none for a command that only groups others. -/
  action : Option α := Option.none
  /-- The version that the command shows on request. -/
  version : String := ""

/-- A command and the commands below it. -/
inductive Tree (α : Type) where
  | node (spec : Spec α) (children : List (Tree α))

variable {α : Type}

namespace Tree

/-- The command at the root. -/
def spec : Tree α → Spec α
  | .node s _ => s

/-- The commands below the root. -/
def children : Tree α → List (Tree α)
  | .node _ cs => cs

end Tree

/-- A command in a tree: the commands above it, outermost first, and itself. -/
structure Place (α : Type) where
  above : List (Spec α)
  tree : Tree α

namespace Place

/-- What the command is. -/
def spec (p : Place α) : Spec α :=
  p.tree.spec

/-- The names from the root to the command. -/
def path (p : Place α) : String :=
  Text.join " " ((p.above ++ [p.spec]).map (·.name))

/-- The flags that the commands above share with this one. -/
def inherited (p : Place α) : List Flag :=
  p.above.flatMap (·.sharedFlags)

/-- The flags of the command itself. -/
def own (p : Place α) : List Flag :=
  p.spec.flags ++ p.spec.sharedFlags

/-- All flags of the command. -/
def flags (p : Place α) : List Flag :=
  p.own ++ p.inherited

/-- A command below this one. -/
def below (p : Place α) (child : Tree α) : Place α :=
  ⟨p.above ++ [p.spec], child⟩

end Place

/-! ### The way to a command -/

/-- Whether a flag takes the next argument as its value, as far as the flags known are concerned.
A flag that is not known is taken to do so. -/
def takesNext (flags : List Flag) (s : String) : Bool :=
  let isSwitch (f : Option Flag) : Bool := f.any (·.kind == .switch)
  match s.toList with
  | '-' :: '-' :: name =>
    !name.contains '=' && !isSwitch (named? flags (String.ofList name))
  | ['-', c] => c != '=' && c.toNat < 0x80 && !isSwitch (lettered? flags c)
  | _ => false

/-- Whether an argument is neither empty nor a flag. -/
def isWord (s : String) : Bool :=
  match s.toList with
  | [] => false
  | c :: _ => c != '-'

/-- The arguments that are neither flags nor values of flags. -/
def wordsOf (flags : List Flag) : List String → List String
  | [] => []
  | s :: rest =>
    if s == "--" then []
    else if takesNext flags s then
      match rest with
      | _ :: next :: more => wordsOf flags (next :: more)
      | _ => []
    else if isWord s then s :: wordsOf flags rest
    else wordsOf flags rest

/-- A command line without the first word that is `word`. -/
def withoutWord (flags : List Flag) (word : String) : List String → List String
  | [] => []
  | s :: rest =>
    if s == "--" then s :: rest
    else if takesNext flags s then
      match rest with
      | value :: more => s :: value :: withoutWord flags word more
      | [] => [s]
    else if s == word then rest
    else s :: withoutWord flags word rest

/-- Follows the words of a command line down a tree, for at most `fuel` steps. -/
def descend (fuel : Nat) (p : Place α) (args : List String) : Place α × List String :=
  match fuel, wordsOf p.flags args with
  | fuel + 1, word :: _ =>
    match p.tree.children.find? (·.spec.name == word) with
    | some child => descend fuel (p.below child) (withoutWord p.flags word args)
    | none => (p, args)
  | _, _ => (p, args)

/-! ### Misspelt names -/

/-- One more row of the table of distances: `row` holds the distances for the text before `c`. -/
def nextRow (c : UInt8) (t : List UInt8) (row : List Nat) : List Nat :=
  let rec fill (left : Nat) : List UInt8 → List Nat → List Nat
    | d :: ds, diagonal :: up :: more =>
      let here := if c == d then diagonal else 1 + min diagonal (min up left)
      here :: fill here ds (up :: more)
    | _, _ => []
  let first := row.headD 0 + 1
  first :: fill first t row

/-- How many bytes must be put in, taken out or replaced to make one text of another. -/
def distance (s t : String) : Nat :=
  let bs := Text.bytes t
  ((Text.bytes s).foldl (fun row c => nextRow c bs row) (List.range (bs.length + 1))).getLastD 0

/-- The largest distance at which a name is suggested. -/
def suggestionDistance : Nat := 2

/-- Whether a name may be meant by a word. -/
def isMeant (word name : String) : Bool :=
  distance (Text.lower word) (Text.lower name) ≤ suggestionDistance
    || Text.startsWith (Text.lower name) (Text.lower word)

/-- The commands that a word may stand for; those in `silent` are never suggested. -/
def Tree.suggestions (t : Tree α) (silent : List String) (word : String) : List String :=
  (t.children.map (·.spec.name)).filter fun name => !silent.contains name && isMeant word name

/-- The words for suggestions. -/
def suggestionText (names : List String) : String :=
  if names.isEmpty then ""
  else "\n\nDid you mean this?\n" ++ String.join (names.map fun n => "\t" ++ n ++ "\n")

/-- The failure of a word that names no command. -/
def unknownCommand (word path : String) (suggested : String) : Failure :=
  .because ("unknown command " ++ Text.quoted word ++ " for " ++ Text.quoted path ++ suggested)

/-- The command that a command line names, and the rest of the line.  A program with commands
takes no arguments of its own. -/
def Tree.locate (t : Tree α) (silent : List String) (args : List String) :
    Except Failure (Place α × List String) :=
  let (p, rest) := descend args.length ⟨[], t⟩ args
  match p.above, wordsOf p.flags rest with
  | [], word :: _ =>
    if t.children.isEmpty || t.spec.arity != .any then .ok (p, rest)
    else .error (unknownCommand word p.path (suggestionText (t.suggestions silent word)))
  | _, _ => .ok (p, rest)

/-- Checks the number of arguments of a command. -/
def Place.checkArgs (p : Place α) (args : List String) : Except Failure Unit :=
  match p.spec.arity, args with
  | .none, word :: _ => .error (unknownCommand word p.path "")
  | .atMost n, args =>
    let found := args.length
    if found ≤ n then .ok () else failBecause s!"accepts at most {n} arg(s), received {found}"
  | _, _ => .ok ()

end TaintFlow.Command
