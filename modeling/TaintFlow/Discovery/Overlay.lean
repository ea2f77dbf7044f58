import TaintFlow.Discovery.Builtin

/-!
# Layers of rules

Extra rules are laid over a table of rules one by one.  A rule takes the place of the rule with
its id, or is appended; a disabled rule removes the one with its id.
-/

namespace TaintFlow.Discovery

/-- Puts a rule in the place of the first one with its id. -/
def replaceFirst (r : Rule) : List Rule → List Rule
  | [] => []
  | b :: bs => if b.id == r.id then r :: bs else b :: replaceFirst r bs

/-- Lays one rule over a table. -/
def layer (rules : List Rule) (r : Rule) : List Rule :=
  if r.disabled then rules.eraseP (·.id == r.id)
  else if rules.any (·.id == r.id) then replaceFirst r rules
  else rules ++ [r]

/-- Lays extra rules over a table and drops the rules that are disabled. -/
def overlay (base extra : List Rule) : List Rule :=
  (extra.foldl layer base).filter (!·.disabled)

/-- Gives the rule for request objects other beginnings of names, if there are any. -/
def withPrefixes (prefixes : List String) (rules : List Rule) : List Rule :=
  if prefixes.isEmpty then rules
  else rules.map fun r => if r.id == requestRuleId then requestRule prefixes else r

end TaintFlow.Discovery
