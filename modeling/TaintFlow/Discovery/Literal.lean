import TaintFlow.Number.Numeral

/-!
# Constant expressions

An expression is constant when it is a quoted text without interpolation, a number or one of the
constant words.
-/

namespace TaintFlow.Discovery

/-- The words for constants. -/
def constantWords : List String :=
  ["true", "false", "null", "nil", "None", "undefined", "True", "False"]

/-- The characters between the first and the last one. -/
def inside (cs : List Char) : List Char :=
  (cs.drop 1).dropLast

/-- Whether a trimmed expression is a constant. -/
def isConstant (e : List Char) : Bool :=
  match e with
  | [] => true
  | first :: rest =>
    if constantWords.contains (String.ofList e) then true
    else if (first == '"' || first == '\'') && rest.getLast? == some first then
      !(inside e).contains first
    else if first == '\x60' && rest.getLast? == some first then
      !Text.containsList ['$', '\x7b'] e
    else (Numeral.binary .double (String.ofList e)).isValue
      || (Numeral.general (String.ofList e)).isValue

/-- Whether an expression is constant, blanks at its ends aside. -/
def isLiteral (expr : String) : Bool :=
  isConstant (Text.trimChars expr.toList)

end TaintFlow.Discovery
