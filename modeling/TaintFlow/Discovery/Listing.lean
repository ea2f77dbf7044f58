import TaintFlow.Discovery.Rule
import TaintFlow.Text.TabStops
import TaintFlow.Yaml.Basic

/-!
# Listings of rules

The rule table for people, and the rules as a file that can be edited and read back.
-/

namespace TaintFlow.Discovery

/-- The risk of a rule in a table: its kind and, after a colon, its level. -/
def RiskSpec.shown (r : RiskSpec) : String :=
  if r.level.name.isEmpty then r.kind.name else r.kind.name ++ ":" ++ r.level.name

/-- The line of a rule, its parts divided by tabs. -/
def Rule.line (r : Rule) : String :=
  Text.join "\t" [r.id, r.kind.name, r.table, r.category, r.risk.shown] ++ "\n"

/-- The rule table. -/
def ruleTable (rules : List Rule) : String :=
  Text.alignTabs 2 ("ID\tKIND\tTABLE\tCATEGORY\tRISK\n" ++ String.join (rules.map Rule.line))

open Yaml (optText optBool optList)

/-- A condition in a rule file. -/
def Condition.toYaml (c : Condition) : Yaml :=
  .map ([("column", .text c.column), ("op", .text c.op.name)] ++ optText "value" c.value
    ++ optList "values" (c.values.map .text) ++ optBool "negate" c.negate
    ++ optBool "ignore_case" c.ignoreCase)

/-- The risk in a rule file. -/
def RiskSpec.toYaml (r : RiskSpec) : Yaml :=
  .map ([("kind", .text r.kind.name)] ++ optText "level" r.level.name ++ optText "column" r.column)

/-- The arguments in a rule file. -/
def ArgSpec.members (a : ArgSpec) : List (String × Yaml) :=
  optText "column" a.column ++ optBool "same_line_calls" a.sameLineCalls
    ++ optList "callees" (a.callees.map .text)

/-- A rule in a rule file. -/
def Rule.toYaml (r : Rule) : Yaml :=
  .map ([("id", .text r.id), ("kind", .text r.kind.name), ("table", .text r.table)]
    ++ optList "match" (r.conditions.map Condition.toYaml)
    ++ [("category", .text r.category), ("risk", r.risk.toYaml)]
    ++ optText "symbol" r.symbol ++ optText "symbol_fallback" r.symbolFallback
    ++ optBool "assign_targets" r.assignTargets ++ optText "function" r.function
    ++ optText "name" r.name
    ++ (if r.args.members.isEmpty then [] else [("args", .map r.args.members)])
    ++ optBool "disabled" r.disabled)

/-- The rule file. -/
def ruleFile (rules : List Rule) : String :=
  Yaml.document [("rules", .list (rules.map Rule.toYaml))]

end TaintFlow.Discovery
