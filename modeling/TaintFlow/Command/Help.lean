import TaintFlow.Command.Tree
import TaintFlow.Text.Order

/-!
# Reading a command line

Every command also takes a flag that asks for help, and a command with a version one that asks for
it.  A command that only groups others shows its help.

## Main definitions

* `Place.helpText` — the help of a command.
* `Reading` — what a command line asks for.
* `Tree.read` — reads a command line.
-/

namespace TaintFlow.Command

variable {α : Type}

/-- The name of the command that shows help, which is never suggested. -/
def helpName : String := "help"

/-- The flag that asks for help. -/
def helpFlag (name : String) : Flag :=
  { name := helpName, letter := some 'h', kind := .switch, usage := "help for " ++ name }

/-- The flag that asks for the version; its letter gives way to another flag's. -/
def versionFlag (name : String) (others : List Flag) : Flag :=
  { name := "version", kind := .switch, usage := "version for " ++ name,
    letter := if (lettered? others 'v').isSome then none else some 'v' }

namespace Place

/-- The flags of a command itself, with those that every command takes. -/
def ownFlags (p : Place α) : List Flag :=
  p.own ++ [helpFlag p.spec.name]
    ++ (if p.spec.version.isEmpty then [] else [versionFlag p.spec.name p.flags])

/-! ### Help -/

/-- What stands for the value of a flag in help. -/
def placeholder (f : Flag) : String :=
  match f.kind with
  | .text => " string"
  | .int => " int"
  | .duration => " duration"
  | .switch => ""

/-- A flag in help, without what it is for. -/
def flagHead (f : Flag) : String :=
  (if f.letter.isSome then "  " else "      ") ++ f.shown ++ placeholder f

/-- The value of a flag that is not given, if it says something. -/
def initialText (f : Flag) : String :=
  if f.initial.isEmpty then ""
  else if f.kind == .text then " (default " ++ Text.quoted f.initial ++ ")"
  else " (default " ++ f.initial ++ ")"

/-- The lines on flags, in the order of their names. -/
def flagLines (flags : List Flag) : String :=
  let sorted := sortBy (fun a b => compareText a.name b.name) flags
  let width := (sorted.map fun f => (flagHead f).length).foldl max 0
  Text.join "\n" (sorted.map fun f =>
    Text.padRight (width + 3) (flagHead f) ++ f.usage ++ initialText f)

/-- A titled list of flags, if there are any. -/
def flagSection (title : String) (flags : List Flag) : String :=
  if flags.isEmpty then "" else "\n\n" ++ title ++ ":\n" ++ flagLines flags

/-- How a command is used. -/
def useLine (p : Place α) : String :=
  p.path ++ (if p.spec.argsUsage.isEmpty then "" else " " ++ p.spec.argsUsage) ++ " [flags]"

/-- The lines on the commands below a command, in the order of their names. -/
def commandLines (p : Place α) : String :=
  let sorted := sortBy (fun a b => compareText a.spec.name b.spec.name) p.tree.children
  String.join (sorted.map fun c =>
    "\n  " ++ Text.padRight 11 c.spec.name ++ " " ++ c.spec.short)

/-- How a command is used, with the commands below it and its flags. -/
def usageText (p : Place α) : String :=
  let groups := !p.tree.children.isEmpty
  "Usage:"
    ++ (if p.spec.action.isSome then "\n  " ++ p.useLine else "")
    ++ (if groups then "\n  " ++ p.path ++ " [command]" else "")
    ++ (if groups then "\n\nAvailable Commands:" ++ p.commandLines else "")
    ++ flagSection "Flags" p.ownFlags
    ++ flagSection "Global Flags" p.inherited
    ++ (if groups then
        "\n\nUse \"" ++ p.path ++ " [command] --help\" for more information about a command."
      else "")
    ++ "\n"

/-- The help of a command. -/
def helpText (p : Place α) : String :=
  (if p.spec.long.isEmpty then p.spec.short else p.spec.long) ++ "\n\n" ++ p.usageText

end Place

/-! ### Reading -/

/-- What a command line asks for. -/
inductive Reading (α : Type) where
  | help (place : Place α)
  | version (text : String)
  | run (place : Place α) (action : α) (line : Parsed)

/-- Reads what follows the name of a command. -/
def Place.read (p : Place α) (args : List String) : Except Failure (Reading α) :=
  match parseFlags (p.ownFlags ++ p.inherited) args with
  | .error e => failBecause e.text
  | .ok line =>
    if line.isOn helpName then .ok (.help p)
    else if !p.spec.version.isEmpty && line.isOn "version" then .ok (.version p.spec.version)
    else match p.spec.action with
      | none => .ok (.help p)
      | some action => (p.checkArgs line.args).map fun () => .run p action line

/-- Reads a command line. -/
def Tree.read (t : Tree α) (args : List String) : Except Failure (Reading α) := do
  let (p, rest) ← t.locate [helpName] args
  p.read rest

end TaintFlow.Command
