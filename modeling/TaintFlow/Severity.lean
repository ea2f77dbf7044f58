/-!
# Severities

How grave a finding is.  Severities have names; a name that is no severity ranks below all of
them.

## Main definitions

* `Severity` and its names.
* `Severity.rank` — a higher rank is graver.
* `Severity.max` — the graver of two.
-/

namespace TaintFlow

/-- How grave a finding is. -/
inductive Severity where
  | critical
  | high
  | medium
  | low
  | info
  /-- A name that is no severity. -/
  | unknown (name : String)
  deriving DecidableEq, Repr, Inhabited

namespace Severity

/-- The name of a severity. -/
def name : Severity → String
  | .critical => "critical"
  | .high => "high"
  | .medium => "medium"
  | .low => "low"
  | .info => "info"
  | .unknown name => name

/-- The severity with a given name. -/
def ofName : String → Severity
  | "critical" => .critical
  | "high" => .high
  | "medium" => .medium
  | "low" => .low
  | "info" => .info
  | name => .unknown name

/-- The rank of a severity; a higher rank is graver. -/
def rank : Severity → Int
  | .critical => 4
  | .high => 3
  | .medium => 2
  | .low => 1
  | .info => 0
  | .unknown _ => -1

/-- Whether a name is that of a severity. -/
def known (s : Severity) : Bool :=
  0 ≤ s.rank

/-- The graver of two severities, the first one when they rank alike. -/
def max (a b : Severity) : Severity :=
  if a.rank < b.rank then b else a

end Severity

end TaintFlow
