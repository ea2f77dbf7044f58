import TaintFlow.Command.Flag
import TaintFlow.Command.Host
import TaintFlow.Settings.Basic
import TaintFlow.Settings.Document

/-!
# Settings of a command

The settings come from the flags of the command, the environment, and the settings file: the one
that a flag names, or the first of the usual names that exists.
-/

namespace TaintFlow.Command

/-- The usual names of settings files, in the order in which they are looked for. -/
def usualFiles : List String :=
  "config" :: (["json", "toml", "yaml", "yml", "properties", "props", "prop", "hcl", "tfvars",
    "dotenv", "env", "ini"].map ("config." ++ ·))

/-- The text of the first file that can be read. -/
def firstFile {m : Type → Type} [Monad m] (disk : Disk m) : List String → m (Option String)
  | [] => return none
  | name :: names => do
    match ← disk.read name with
    | .ok text => return some text
    | .error _ => firstFile disk names

/-- The failure of a settings file that cannot be read. -/
def unreadable : Failure :=
  .during "failed to initialize configuration" (.because "error reading config file")

/-- What a settings file holds; without a path, what the first of the usual files holds. -/
def settingsFile {m : Type → Type} [Monad m] (disk : Disk m) (path : String) :
    m (Except Failure Json) := do
  let parsed (k : Document.Kind) (text : String) : Except Failure Json :=
    ((Document.parse? k text).map Except.ok).getD (.error unreadable)
  if path.isEmpty then
    match ← firstFile disk usualFiles with
    | some text => return parsed .yaml text
    | none => return .ok (.obj [])
  else
    match Document.Kind.ofPath? path, ← disk.read path with
    | some k, .ok text => return parsed k text
    | _, _ => return .error unreadable

/-- The flags that set settings, and the settings that they set. -/
def boundFlags : List (String × String) :=
  [("max-hops", "analysis.max_hops"), ("timeout", "analysis.timeout"),
   ("concurrency", "analysis.concurrency"), ("format", "output.format"),
   ("output", "output.path"), ("rules", "discovery.rules_file")]

/-- A given value as a setting. -/
def Given.toJson : Given → Json
  | .text s => .str s
  | .int n => .ofInt n
  | .duration d => .str d.text
  | .switch b => .bool b

/-- The settings that the flags in `bound` set. -/
def Parsed.settings (line : Parsed) (bound : List String) : List (String × Json) :=
  boundFlags.filterMap fun (flag, key) =>
    if bound.contains flag then (line.last? flag).map (key, ·.toJson) else none

/-- The settings of a command. -/
def configure {m : Type → Type} [Monad m] (host : Host m) (line : Parsed) (bound : List String) :
    m (Except Failure Settings) := do
  match ← settingsFile host.disk (line.textOr "config" "") with
  | .error f => return .error f
  | .ok file =>
    return during "failed to load or validate config"
      (Settings.ofLayers (Settings.layers (line.settings bound) host.env file))

end TaintFlow.Command
