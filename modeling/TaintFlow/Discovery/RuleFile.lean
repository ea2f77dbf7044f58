import TaintFlow.Discovery.Rule
import TaintFlow.Settings.Document
import TaintFlow.Settings.Weak

/-!
# Rule files

A rule file holds a list of rules under the key `rules`.  Values are decoded leniently, unknown
keys are ignored, and every rule must have an identifier.

## Main definitions

* `ruleOfJson?` — the rule that an object describes.
* `rulesOfDocument` — the rules of a file that has been read.
* `loadRules` — reads a rule file.
-/

namespace TaintFlow.Discovery

/-- The condition that an object describes. -/
def conditionOfJson? (v : Json) : Option Condition := do
  let o ← Weak.object? v
  return { column := ← Weak.text? (o.get "column"), op := .ofName (← Weak.text? (o.get "op")),
           value := ← Weak.text? (o.get "value"),
           values := ← Weak.list? Weak.text? (o.get "values"),
           negate := ← Weak.bool? (o.get "negate"),
           ignoreCase := ← Weak.bool? (o.get "ignore_case") }

/-- The risk that an object describes. -/
def riskOfJson? (v : Json) : Option RiskSpec := do
  let o ← Weak.object? v
  return { kind := .ofName (← Weak.text? (o.get "kind")),
           level := .ofName (← Weak.text? (o.get "level")),
           column := ← Weak.text? (o.get "column") }

/-- The arguments that an object describes. -/
def argsOfJson? (v : Json) : Option ArgSpec := do
  let o ← Weak.object? v
  return { column := ← Weak.text? (o.get "column"),
           sameLineCalls := ← Weak.bool? (o.get "same_line_calls"),
           callees := ← Weak.list? Weak.text? (o.get "callees") }

/-- The rule that an object describes. -/
def ruleOfJson? (v : Json) : Option Rule := do
  let o ← Weak.object? v
  return { id := ← Weak.text? (o.get "id"), kind := .ofName (← Weak.text? (o.get "kind")),
           table := ← Weak.text? (o.get "table"),
           conditions := ← Weak.list? conditionOfJson? (o.get "match"),
           category := ← Weak.text? (o.get "category"), risk := ← riskOfJson? (o.get "risk"),
           symbol := ← Weak.text? (o.get "symbol"),
           symbolFallback := ← Weak.text? (o.get "symbol_fallback"),
           assignTargets := ← Weak.bool? (o.get "assign_targets"),
           function := ← Weak.text? (o.get "function"), name := ← Weak.text? (o.get "name"),
           args := ← argsOfJson? (o.get "args"), disabled := ← Weak.bool? (o.get "disabled") }

/-- The rules of a document read from `path`; none when it has no list of rules, not even an
empty one. -/
def rulesOfDocument (path : String) (doc : Json) : Except Failure (Option (List Rule)) :=
  match Weak.list? ruleOfJson? (doc.get "rules") with
  | none => failBecause ("failed to decode rules file " ++ path)
  | some rules =>
    match rules.findIdx? (·.id.isEmpty) with
    | some i => failBecause s!"rules file {path}: rule {i} has no id"
    | none => .ok (if doc.has "rules" then some rules else none)

/-- The document of a file that was read, if it is one. -/
def readDocument (path : String) (read : Except Disk.Trouble String) : Except Failure Json :=
  let failed := "failed to read rules file " ++ path
  match Document.Kind.ofPath? path, read with
  | none, _ => .error (.during failed (.because "unsupported kind of file"))
  | some _, .error t => .error (.during failed (t.reading path))
  | some k, .ok text =>
    match Document.parse? k text with
    | some doc => .ok doc
    | none => .error (.during failed (.because "not a document"))

/-- Reads a rule file. -/
def loadRules {m : Type → Type} [Monad m] (disk : Disk m) (home path : String) :
    m (Except Failure (Option (List Rule))) := do
  match Disk.expandHome home path with
  | .error e => return .error (.during ("failed to expand rules path " ++ path) e)
  | .ok file =>
    let text ← disk.read file
    return (readDocument file text).bind (rulesOfDocument file)

end TaintFlow.Discovery
