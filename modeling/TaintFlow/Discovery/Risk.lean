import TaintFlow.Pattern.Parser
import TaintFlow.Severity
import TaintFlow.Text.Bytes

/-!
# The risk of an expression

An expression that is put together by concatenation or interpolation is of high risk, one that
uses bind parameters is of low risk, and any other is of medium risk.

## Main definitions

* `Discovery.concatenates` — a `+`, or a `.` between blanks, outside of literals.
* `Discovery.structuralRisk` — the risk of an expression.
-/

namespace TaintFlow.Discovery

/-- Whether a byte opens a literal: one of the three quotes. -/
def opensLiteral (c : UInt8) : Bool :=
  c == 0x22 || c == 0x27 || c == 0x60

/-- Whether an operator that concatenates stands outside of literals.  `quote` is the quote of the
literal that is open, `before` the byte before the rest.  Two plus signs in a row are one
increment. -/
def concatenatesFrom (quote before : Option UInt8) : List UInt8 → Bool
  | [] => false
  | c :: cs =>
    match quote with
    | some q =>
      if c == 0x5C then
        match cs with
        | [] => false
        | d :: cs' => concatenatesFrom quote (some d) cs'
      else concatenatesFrom (if c == q then none else quote) (some c) cs
    | none =>
      if opensLiteral c then concatenatesFrom (some c) (some c) cs
      else if c == 0x2B then
        if cs.head? == some 0x2B then
          match cs with
          | [] => false
          | d :: cs' => concatenatesFrom none (some d) cs'
        else true
      else if c == 0x2E && before == some 0x20 && cs.head? == some 0x20 then true
      else concatenatesFrom none (some c) cs

/-- Whether an expression concatenates: a `+`, or a `.` between blanks, outside of literals. -/
def concatenates (e : List UInt8) : Bool :=
  concatenatesFrom none none e

/-- The texts that mark interpolation, inside literals too. -/
def interpolationMarks : List String :=
  ["$\x7b", "\".", "'.", "%s", "%d", ".format("]

/-- A fixed notation that is known to be well formed. -/
def fixedPattern (source : String) : Pattern :=
  match Pattern.parse source with
  | .ok p => p
  | .error _ => .empty

/-- A formatted literal. -/
def formattedLiteral : Pattern :=
  fixedPattern "(^|[^\\w])f[\"']"

/-- A bind parameter. -/
def bindParameter : Pattern :=
  fixedPattern "\\?|\\$\\d+|(^|[^:\\w]):[A-Za-z_]\\w*|(^|[^\\w])@[A-Za-z_]\\w*|%\\(\\w+\\)s"

/-- The risk of an expression by the way it is built. -/
def structuralRisk (expr : String) : Severity :=
  if concatenates (Text.bytes expr) || interpolationMarks.any (Text.contains expr)
      || formattedLiteral.matchesIn expr then .high
  else if bindParameter.matchesIn expr then .low
  else .medium

end TaintFlow.Discovery
