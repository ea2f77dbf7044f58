import TaintFlow.Discovery.Literal
import TaintFlow.Discovery.Rule
import TaintFlow.Facts.Row
import TaintFlow.Pattern.Parser
import TaintFlow.Schema.Tables
import TaintFlow.Text.Name
import TaintFlow.Text.Quoted

/-!
# Checked rules

A rule is checked against the declared tables before it is used: it must have an id, a kind, a
category and a table, name only columns of that table, have a well-formed risk, and conditions
whose operators have what they need.

## Main definitions

* `Discovery.RuleError` — what may be wrong with a rule, and its wording.
* `Discovery.Test` — a condition that is ready to be evaluated.
* `Discovery.Compiled` — a checked rule.
* `Discovery.compile` — checks a rule.
* `Discovery.Compiled.accepts` — whether a row satisfies all conditions.
-/

namespace TaintFlow.Discovery

/-- What may be wrong with a condition. -/
inductive ConditionError where
  | unknownColumn (table column : String)
  | needsValue
  | needsValues (op : Operator)
  | pattern (e : PatternError)
  | unknownOperator (op : Operator)
  deriving DecidableEq, Repr

/-- The wording of a condition's error. -/
def ConditionError.text : ConditionError → String
  | .unknownColumn table column => "table " ++ table ++ " has no column " ++ Text.quoted column
  | .needsValue => "eq needs a value"
  | .needsValues op => op.name ++ " needs values"
  | .pattern e => e.text
  | .unknownOperator op => "unknown op " ++ Text.quoted op.name

/-- What may be wrong with a rule. -/
inductive RuleError where
  | noId (table : String)
  | unknownKind (rule kind : String)
  | missingCategory (rule : String)
  | unknownTable (rule table : String)
  | unknownColumn (rule table column : String)
  | fixedLevel (rule level : String)
  | structuralColumn (rule : String)
  | riskFloor (rule level : String)
  | authColumn (rule : String)
  | unknownRisk (rule kind : String)
  | condition (rule : String) (index : Nat) (e : ConditionError)
  deriving DecidableEq, Repr

/-- The wording of a rule's error. -/
def RuleError.text : RuleError → String
  | .noId table => "rule without id on table " ++ Text.quoted table
  | .unknownKind rule kind => "rule " ++ rule ++ ": unknown kind " ++ Text.quoted kind
  | .missingCategory rule => "rule " ++ rule ++ ": missing category"
  | .unknownTable rule table => "rule " ++ rule ++ ": unknown table " ++ Text.quoted table
  | .unknownColumn rule table column =>
    "rule " ++ rule ++ ": table " ++ table ++ " has no column " ++ Text.quoted column
  | .fixedLevel rule level =>
    "rule " ++ rule ++ ": fixed risk needs a valid level, got " ++ Text.quoted level
  | .structuralColumn rule => "rule " ++ rule ++ ": structural risk needs a column"
  | .riskFloor rule level => "rule " ++ rule ++ ": invalid risk floor " ++ Text.quoted level
  | .authColumn rule => "rule " ++ rule ++ ": auth risk needs a column"
  | .unknownRisk rule kind => "rule " ++ rule ++ ": unknown risk kind " ++ Text.quoted kind
  | .condition rule index e => s!"rule {rule}: condition {index}: {e.text}"

/-- A condition that is ready to be evaluated. -/
structure Test where
  condition : Condition
  /-- The pattern of a condition that has one. -/
  pattern : Pattern := .empty
  deriving Inhabited

/-- A rule that has been checked. -/
structure Compiled where
  rule : Rule
  table : Schema.Table
  tests : List Test
  deriving Inhabited

/-- Checks a condition. -/
def compileCondition (t : Schema.Table) (c : Condition) : Except ConditionError Test :=
  if !t.hasColumn c.column then .error (.unknownColumn t.name c.column)
  else match c.op with
    | .eq => if c.value.isEmpty then .error .needsValue else .ok ⟨c, .empty⟩
    | .oneOf | .lastSegmentIn | .startsWith | .endsWith | .contains =>
      if c.operands.isEmpty then .error (.needsValues c.op) else .ok ⟨c, .empty⟩
    | .matchesPattern =>
      match Pattern.parse ((if c.ignoreCase then "(?i)" else "") ++ c.value) with
      | .ok p => .ok ⟨c, p⟩
      | .error e => .error (.pattern e)
    | .notLiteral | .notNull | .isTrue | .isFalse => .ok ⟨c, .empty⟩
    | .unknown _ => .error (.unknownOperator c.op)

/-- Checks conditions, the first one having number `i`. -/
def compileConditions (rule : String) (t : Schema.Table) (i : Nat) :
    List Condition → Except RuleError (List Test)
  | [] => .ok []
  | c :: cs =>
    match compileCondition t c with
    | .error e => .error (.condition rule i e)
    | .ok test => (compileConditions rule t (i + 1) cs).map (test :: ·)

/-- Checks the risk of a rule. -/
def riskError? (r : Rule) : Option RuleError :=
  match r.risk.kind with
  | .fixed => if r.risk.level.known then none else some (.fixedLevel r.id r.risk.level.name)
  | .structural =>
    if r.risk.column.isEmpty then some (.structuralColumn r.id)
    else if r.risk.level.name.isEmpty || r.risk.level.known then none
    else some (.riskFloor r.id r.risk.level.name)
  | .auth => if r.risk.column.isEmpty then some (.authColumn r.id) else none
  | .unknown kind => some (.unknownRisk r.id kind)

/-- The columns that a rule names outside of its conditions. -/
def namedColumns (r : Rule) : List String :=
  [r.symbol, r.symbolFallback, r.function, r.name, r.args.column, r.risk.column]

/-- Checks a rule. -/
def compile (r : Rule) : Except RuleError Compiled :=
  if r.id.isEmpty then .error (.noId r.table)
  else match r.kind with
    | .unknown kind => .error (.unknownKind r.id kind)
    | _ =>
      if r.category.isEmpty then .error (.missingCategory r.id)
      else match Schema.lookup? Schema.factTables r.table with
        | none => .error (.unknownTable r.id r.table)
        | some t =>
          match (namedColumns r).find? fun c => !c.isEmpty && !t.hasColumn c with
          | some c => .error (.unknownColumn r.id r.table c)
          | none =>
            match riskError? r with
            | some e => .error e
            | none => (compileConditions r.id t 0 r.conditions).map (⟨r, t, ·⟩)

/-- A text in lower case when a condition ignores case. -/
def Condition.folded (c : Condition) (s : String) : String :=
  if c.ignoreCase then Text.lower s else s

/-- Whether the text of a column satisfies a condition, negation aside. -/
def Test.holds (t : Test) (text : String) : Bool :=
  let c := t.condition
  let v := if c.op == .matchesPattern then text else c.folded text
  let operands := c.operands.map c.folded
  match c.op with
  | .eq => v == c.folded c.value
  | .oneOf => operands.contains v
  | .lastSegmentIn => operands.contains (Name.lastSegment v)
  | .startsWith => operands.any (Text.startsWith v)
  | .endsWith => operands.any (Text.endsWith v)
  | .contains => operands.any (Text.contains v)
  | .matchesPattern => t.pattern.matchesIn v
  | .notLiteral => !isLiteral v
  | .isTrue => v == "true"
  | .isFalse => v == "false"
  | .notNull => true
  | .unknown _ => false

/-- Whether a row satisfies a condition.  Of NULL every operator is false. -/
def Test.accepts (t : Test) (table : Schema.Table) (r : Facts.Row) : Bool :=
  (match r.text? table t.condition.column with
    | some text => t.holds text
    | none => false) != t.condition.negate

/-- Whether a row satisfies all conditions of a rule. -/
def Compiled.accepts (c : Compiled) (r : Facts.Row) : Bool :=
  c.tests.all (·.accepts c.table r)

end TaintFlow.Discovery
