import TaintFlow.Discovery.Compiled
import TaintFlow.Discovery.Overlay
import TaintFlow.Discovery.Risk
import TaintFlow.Facts.Records
import TaintFlow.Failure
import TaintFlow.Text.Order
import TaintFlow.Text.Search

/-!
# Discovering sources and sinks

The engine applies the rules to all rows.  A row gives at most one hit per category, made by the
first rule of that category that accepts it; hits are sorted by location, category, rule and
origin.

## Main definitions

* `Discovery.Source`, `Discovery.Sink` — what is found.
* `Discovery.Engine` — checked rules, a scorer for structural risk, and the weight of
  authentication.
* `Discovery.Engine.make` — lays rules over each other and checks them.
* `Discovery.Engine.sources`, `Discovery.Engine.sinks` — the hits in a cache.
-/

namespace TaintFlow.Discovery

open Facts (Cache Row Location)

/-- The row that a source or sink was found in. -/
structure Origin where
  table : String := ""
  row : Nat := 0
  deriving DecidableEq, Repr, Inhabited

/-- An entry point of untrusted data. -/
structure Source where
  id : String := ""
  rule : String := ""
  category : String := ""
  location : Location := {}
  /-- The slot that holds the untrusted value; empty when there is none. -/
  symbol : String := ""
  /-- A handler all of whose parameters are untrusted; empty when there is none. -/
  function : String := ""
  risk : Severity := .unknown ""
  origin : Origin := {}
  deriving DecidableEq, Repr, Inhabited

/-- A dangerous operation. -/
structure Sink where
  id : String := ""
  rule : String := ""
  category : String := ""
  location : Location := {}
  name : String := ""
  /-- The argument expressions that must stay untainted. -/
  args : List String := []
  risk : Severity := .unknown ""
  origin : Origin := {}
  deriving DecidableEq, Repr, Inhabited

/-- The category of findings for a category of sinks. -/
def findingCategory : String → String
  | "sql" => "sql_injection"
  | "command" => "command_injection"
  | "eval" => "code_injection"
  | "filesystem" => "path_traversal"
  | "network" => "ssrf"
  | "xss" => "xss"
  | "ldap" => "ldap_injection"
  | "nosql" => "nosql_injection"
  | _ => "tainted_flow"

/-- How an engine is set up. -/
structure Setup where
  /-- The table of rules. -/
  rules : List Rule := builtinRules
  /-- The rules laid over it. -/
  extra : List Rule := []
  /-- How the names of request properties begin; the rule's own list when empty. -/
  prefixes : List String := []
  /-- Grades an expression for rules of structural risk. -/
  scorer : String → Severity := structuralRisk
  /-- Whether authenticated endpoints are of low risk. -/
  weightAuth : Bool := false

/-- Checked rules, ready to be applied. -/
structure Engine where
  compiled : List Compiled
  scorer : String → Severity
  weightAuth : Bool

namespace Engine

/-- Checks rules one after another; `seen` holds the ids of the rules before. -/
def compileAll (seen : List String) : List Rule → Except Failure (List Compiled)
  | [] => .ok []
  | r :: rs =>
    if seen.contains r.id then failBecause ("duplicate rule id " ++ r.id)
    else match compile r with
      | .error e => .error (.during "failed to compile rules" (.because e.text))
      | .ok c => (compileAll (r.id :: seen) rs).map (c :: ·)

/-- Lays the rules of a setup over each other and checks them. -/
def make (s : Setup) : Except Failure Engine :=
  (compileAll [] (overlay (withPrefixes s.prefixes s.rules) s.extra)).map
    (⟨·, s.scorer, s.weightAuth⟩)

/-- The rules in force, in the order in which they are tried. -/
def rules (e : Engine) : List Rule :=
  e.compiled.map (·.rule)

end Engine

/-- The text of a column without blanks at its ends; empty for NULL. -/
def trimmedField (t : Schema.Table) (r : Row) (column : String) : String :=
  Text.trim ((r.text? t column).getD "")

/-- The grade of a row by a rule. -/
def Engine.risk (e : Engine) (c : Compiled) (r : Row) : Severity :=
  let spec := c.rule.risk
  match spec.kind with
  | .fixed => spec.level
  | .auth =>
    match r.text? c.table spec.column with
    | none => .medium
    | some authenticated =>
      if authenticated != "true" then .high else if e.weightAuth then .low else .medium
  | _ =>
    let score := e.scorer (trimmedField c.table r spec.column)
    if spec.level.name.isEmpty then score else score.max spec.level

/-! ### What else stands on a line -/

/-- The target of the first assignment at a location. -/
def assignTarget (cache : Cache) (l : Location) : String :=
  match ((cache.select Schema.assignments "file" l.file).map Facts.Assignment.ofRow).find?
      (·.line == l.line) with
  | some a => a.target
  | none => ""

/-- The bytes of dotted names. -/
def isNamePart (b : UInt8) : Bool :=
  b == 0x5F || b == 0x24 || b == 0x2E || (0x61 ≤ b && b ≤ 0x7A) || (0x41 ≤ b && b ≤ 0x5A)
    || (0x30 ≤ b && b ≤ 0x39)

/-- Whether the occurrence of `callee` at `i` is the name of a call: not inside a longer name, and
followed by spaces or tabs and an opening parenthesis. -/
def isCallAt (callee arg : List UInt8) (i : Nat) : Bool :=
  ((arg.drop (i + callee.length)).dropWhile fun b => b == 0x20 || b == 0x09).head? == some 0x28
    && (i == 0 || !arg[i - 1]?.any isNamePart)

/-- Whether the occurrence of `callee` at `i` or one behind it is the name of a call.  The search
goes on one byte behind the start of an occurrence, as the next one may overlap it. -/
def callsFrom (callee arg : List UInt8) (hcallee : callee ≠ []) (i : Nat) : Bool :=
  if isCallAt callee arg i then true
  else match h : Text.indexOf? callee (arg.drop (i + 1)) with
    | none => false
    | some next => callsFrom callee arg hcallee (i + (next + 1))
termination_by arg.length - i
decreasing_by
  have hlt := Text.lt_length_of_indexOf? hcallee h
  rw [List.length_drop] at hlt
  omega

/-- Whether `callee` occurs in an argument as the name of a call. -/
def callsName (callee arg : List UInt8) (hcallee : callee ≠ []) : Bool :=
  match Text.indexOf? callee arg with
  | none => false
  | some i => callsFrom callee arg hcallee i

/-- Whether a call stands in the argument of a different call among `rows`. -/
def nestedCall (c : Facts.CallArgument) (rows : List Facts.CallArgument) : Bool :=
  let callee := Text.bytes (Text.trim c.callee)
  if hcallee : callee = [] then false
  else rows.any fun o =>
    o.callee != c.callee && callsName callee (Text.bytes (o.expr.getD "")) hcallee

/-- Whether a callee is among names, as a whole or by its last segment. -/
def calleeIn (callee : String) (names : List String) : Bool :=
  names.contains callee || names.contains (Name.lastSegment callee)

/-- The calls with an argument that are recorded on a line. -/
def callsOnLine (cache : Cache) (l : Location) : List Facts.CallArgument :=
  ((cache.select Schema.functionCallArgs "file" l.file).map Facts.CallArgument.ofRow).filter
    fun c => c.line == l.line && !(c.expr.getD "").isEmpty

/-- The arguments of the outermost calls on a line, in load order; only of the given callees when
there are any. -/
def callArgs (cache : Cache) (l : Location) (callees : List String) : List String :=
  let rows := callsOnLine cache l
  (rows.filter fun c =>
    (callees.isEmpty || calleeIn c.callee callees) && !nestedCall c rows).map (·.expr.getD "")

/-! ### Hits -/

/-- A row that a rule accepts. -/
structure Hit where
  via : Compiled
  row : Row
  origin : Origin

/-- The order of what is found: by location, category, rule and origin. -/
def compareFound (la lb : Location) (ca cb ra rb : String) (oa ob : Origin) : Ordering :=
  (compareText la.file lb.file).then <|
  (compareInt la.line lb.line).then <|
  (compareInt la.column lb.column).then <|
  (compareText ca cb).then <|
  (compareText ra rb).then <|
  (compareText oa.table ob.table).then (compare oa.row ob.row)

/-- The rows of its table that a rule accepts. -/
def Compiled.hits (cache : Cache) (c : Compiled) : List Hit :=
  ((cache.rows c.table).zipIdx.filter fun (r, _) => c.accepts r).map
    fun (r, i) => ⟨c, r, ⟨c.table.name, i⟩⟩

/-- Adds a hit unless its row has one of the same category already. -/
def addHit (found : List Hit) (h : Hit) : List Hit :=
  if found.any fun o => o.via.rule.category == h.via.rule.category && o.origin == h.origin then found
  else found ++ [h]

/-- The hits of all rules of a kind: one per row and category, by the first rule that accepts the
row. -/
def Engine.hits (e : Engine) (kind : Kind) (cache : Cache) : List Hit :=
  ((e.compiled.filter (·.rule.kind == kind)).flatMap (·.hits cache)).foldl addHit []

/-- The id of what is found. -/
def hitId (mark rule : String) (o : Origin) : String :=
  s!"{mark}:{rule}:{o.table}#{o.row}"

/-- The slot that a source taints. -/
def slotOf (cache : Cache) (c : Compiled) (r : Row) (l : Location) : String :=
  let rule := c.rule
  if !rule.symbol.isEmpty then
    let s := trimmedField c.table r rule.symbol
    if s.isEmpty && !rule.symbolFallback.isEmpty then trimmedField c.table r rule.symbolFallback
    else s
  else if rule.assignTargets then assignTarget cache l
  else ""

/-- The source that a hit stands for. -/
def Engine.source (e : Engine) (cache : Cache) (h : Hit) : Source :=
  let rule := h.via.rule
  let location := h.row.location h.via.table
  { id := hitId "src" rule.id h.origin, rule := rule.id, category := rule.category, location,
    symbol := slotOf cache h.via h.row location,
    function := if rule.function.isEmpty then "" else (h.row.text? h.via.table rule.function).getD "",
    risk := e.risk h.via h.row, origin := h.origin }

/-- The arguments of the sink that a hit stands for. -/
def sinkArgs (cache : Cache) (h : Hit) (l : Location) : List String :=
  let spec := h.via.rule.args
  let onLine := if spec.sameLineCalls then callArgs cache l spec.callees else []
  if !onLine.isEmpty || spec.column.isEmpty then onLine
  else match h.row.text? h.via.table spec.column with
    | some arg => if arg.isEmpty then [] else [arg]
    | none => []

/-- The sink that a hit stands for. -/
def Engine.sink (e : Engine) (cache : Cache) (h : Hit) : Sink :=
  let rule := h.via.rule
  let location := h.row.location h.via.table
  let name := if rule.name.isEmpty then "" else trimmedField h.via.table h.row rule.name
  { id := hitId "sink" rule.id h.origin, rule := rule.id, category := rule.category, location,
    name := if name.isEmpty then rule.category else name,
    args := sinkArgs cache h location, risk := e.risk h.via h.row, origin := h.origin }

/-- The order of sources. -/
def compareSources (a b : Source) : Ordering :=
  compareFound a.location b.location a.category b.category a.rule b.rule a.origin b.origin

/-- The order of sinks. -/
def compareSinks (a b : Sink) : Ordering :=
  compareFound a.location b.location a.category b.category a.rule b.rule a.origin b.origin

/-- The sources in a cache. -/
def Engine.sources (e : Engine) (cache : Cache) : List Source :=
  sortBy compareSources ((e.hits .source cache).map (e.source cache))

/-- The sinks in a cache. -/
def Engine.sinks (e : Engine) (cache : Cache) : List Sink :=
  sortBy compareSinks ((e.hits .sink cache).map (e.sink cache))

end TaintFlow.Discovery
