import TaintFlow.Severity

/-!
# Discovery rules

A rule classifies the rows of one table that satisfy all its conditions as sources or as sinks of
tainted data.

## Main definitions

* `Discovery.Condition` — a predicate on one column.
* `Discovery.RiskSpec` — how a rule grades what it finds.
* `Discovery.Rule` — a rule.
-/

namespace TaintFlow.Discovery

/-- What a rule finds. -/
inductive Kind where
  | source
  | sink
  /-- A name that is no kind. -/
  | unknown (name : String)
  deriving DecidableEq, Repr, Inhabited

/-- The name of a kind. -/
def Kind.name : Kind → String
  | .source => "source"
  | .sink => "sink"
  | .unknown name => name

/-- The kind with a given name. -/
def Kind.ofName : String → Kind
  | "source" => .source
  | "sink" => .sink
  | name => .unknown name

/-- The operator of a condition. -/
inductive Operator where
  | eq
  | oneOf
  | startsWith
  | endsWith
  | contains
  | matchesPattern
  | lastSegmentIn
  | notLiteral
  | notNull
  | isTrue
  | isFalse
  /-- A name that is no operator. -/
  | unknown (name : String)
  deriving DecidableEq, Repr, Inhabited

/-- The name of an operator. -/
def Operator.name : Operator → String
  | .eq => "eq"
  | .oneOf => "in"
  | .startsWith => "prefix"
  | .endsWith => "suffix"
  | .contains => "contains"
  | .matchesPattern => "regex"
  | .lastSegmentIn => "last_segment_in"
  | .notLiteral => "not_literal"
  | .notNull => "not_null"
  | .isTrue => "true"
  | .isFalse => "false"
  | .unknown name => name

/-- The operator with a given name. -/
def Operator.ofName : String → Operator
  | "eq" => .eq
  | "in" => .oneOf
  | "prefix" => .startsWith
  | "suffix" => .endsWith
  | "contains" => .contains
  | "regex" => .matchesPattern
  | "last_segment_in" => .lastSegmentIn
  | "not_literal" => .notLiteral
  | "not_null" => .notNull
  | "true" => .isTrue
  | "false" => .isFalse
  | name => .unknown name

/-- A predicate on one column. -/
structure Condition where
  column : String := ""
  op : Operator := .unknown ""
  value : String := ""
  values : List String := []
  negate : Bool := false
  ignoreCase : Bool := false
  deriving DecidableEq, Repr, Inhabited

/-- The texts that a condition compares with: its list, or its single value. -/
def Condition.operands (c : Condition) : List String :=
  if !c.values.isEmpty then c.values else if c.value.isEmpty then [] else [c.value]

/-- How a rule grades what it finds. -/
inductive RiskKind where
  /-- By a fixed level. -/
  | fixed
  /-- By how the text of a column was built, a level being the least grade. -/
  | structural
  /-- By the authentication flag of an endpoint. -/
  | auth
  /-- A name that is no such kind. -/
  | unknown (name : String)
  deriving DecidableEq, Repr, Inhabited

/-- The name of a kind of risk. -/
def RiskKind.name : RiskKind → String
  | .fixed => "fixed"
  | .structural => "structural"
  | .auth => "auth"
  | .unknown name => name

/-- The kind of risk with a given name. -/
def RiskKind.ofName : String → RiskKind
  | "fixed" => .fixed
  | "structural" => .structural
  | "auth" => .auth
  | name => .unknown name

/-- The risk of a rule. -/
structure RiskSpec where
  kind : RiskKind := .unknown ""
  level : Severity := .unknown ""
  column : String := ""
  deriving DecidableEq, Repr, Inhabited

/-- Where the arguments of a sink come from. -/
structure ArgSpec where
  column : String := ""
  /-- Whether the calls recorded on the sink's line supply them. -/
  sameLineCalls : Bool := false
  /-- The callees that count among those calls; all of them when empty. -/
  callees : List String := []
  deriving DecidableEq, Repr, Inhabited

/-- A rule. -/
structure Rule where
  id : String := ""
  kind : Kind := .unknown ""
  table : String := ""
  conditions : List Condition := []
  category : String := ""
  risk : RiskSpec := {}
  /-- The column that names the tainted slot of a source. -/
  symbol : String := ""
  /-- The column read when that one is NULL or empty. -/
  symbolFallback : String := ""
  /-- Whether the target of the assignment on the source's line is the slot. -/
  assignTargets : Bool := false
  /-- The column that names a handler all of whose parameters are tainted. -/
  function : String := ""
  name : String := ""
  args : ArgSpec := {}
  /-- Whether the rule removes the rule with its id. -/
  disabled : Bool := false
  deriving DecidableEq, Repr, Inhabited

end TaintFlow.Discovery
