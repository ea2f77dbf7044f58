import TaintFlow.Discovery.RuleFile
import TaintFlow.Run
import TaintFlow.Settings.Basic

/-!
# Preparing a run

The settings say which rules, sanitizers and limits a run works with.
-/

namespace TaintFlow

/-- How sources and sinks are found; a list of rules replaces the built-in table. -/
def Settings.setup (s : Settings) (rules : Option (List Discovery.Rule)) : Discovery.Setup where
  rules := rules.getD Discovery.builtinRules
  prefixes := s.discovery.prefixes
  weightAuth := s.analysis.weightAuth

/-- How far the analysis goes; a list of sanitizers that is not empty replaces the built-in one. -/
def Settings.limits (s : Settings) : Flow.Limits where
  sanitizers := if s.discovery.sanitizers.isEmpty then builtinSanitizers else s.discovery.sanitizers
  maxHops := Flow.limitOr s.analysis.maxHops Flow.defaultMaxHops

/-- The rules of the file that the settings name, if they name one. -/
def Settings.rules {m : Type → Type} [Monad m] (disk : Disk m) (home : String) (s : Settings) :
    m (Except Failure (Option (List Discovery.Rule))) := do
  let path := s.discovery.rulesFile
  if path.isEmpty then return .ok none
  return during "failed to load discovery rules" (← Discovery.loadRules disk home path)

/-- The plan of a run with the given settings. -/
def Run.Plan.prepare {m : Type → Type} [Monad m] (disk : Disk m) (home : String) (s : Settings) :
    m (Except Failure Run.Plan) := do
  return (← s.rules disk home).bind fun rules => Run.Plan.make (s.setup rules) s.limits []

end TaintFlow
