import TaintFlow.Expr.Calls
import TaintFlow.Facts.Records
import TaintFlow.Text.Name

/-!
# Sanitizers

A sanitizer is a function whose result counts as clean.  Its name matches a call as a whole or by
its last segment.  A method that the facts record as a validator is a sanitizer on its own line.

## Main definitions

* `Sanitizers` — the names and the validators of lines.
* `Sanitizers.cleans` — whether a call at a line sanitizes its result.
* `Sanitizers.residualNames` — the names an expression reads once sanitizer calls are removed.
-/

namespace TaintFlow

open TaintFlow.Expr (Call Span)

/-- The sanitizers that are known when none are given. -/
def builtinSanitizers : List String :=
  ["escape", "escapeHtml", "escapeHTML", "escapeId", "escapeLiteral", "escapeIdentifier",
   "sanitize", "sanitizeHtml", "DOMPurify.sanitize", "xss", "encodeURIComponent", "encodeURI",
   "html.escape", "markupsafe.escape", "bleach.clean", "shlex.quote", "pipes.quote",
   "htmlspecialchars", "htmlentities", "escapeshellarg", "escapeshellcmd",
   "mysqli_real_escape_string", "html.EscapeString", "template.HTMLEscapeString",
   "url.QueryEscape", "strconv.Atoi", "parseInt", "parseFloat", "Number", "int", "float",
   "path.basename", "os.path.basename"]

/-- A method that counts as a sanitizer on one line. -/
structure LineValidator where
  file : String
  line : Int
  /-- The last segment of the method's name. -/
  method : String
  deriving DecidableEq, Repr

/-- The functions whose results are clean. -/
structure Sanitizers where
  names : List String
  validators : List LineValidator
  deriving DecidableEq, Repr

namespace Sanitizers

/-- The validators that the facts record. -/
def lineValidators (cache : Facts.Cache) : List LineValidator :=
  (cache.validations.filter fun v => v.isValidator && !v.method.isEmpty).map
    fun v => ⟨v.file, v.line, Name.lastSegment v.method⟩

/-- The given names, empty ones aside, and the validators of a cache if there is one. -/
def make (names : List String) (cache : Option Facts.Cache) : Sanitizers where
  names := names.filter (!·.isEmpty)
  validators := (cache.map lineValidators).getD []

/-- Whether a call to `name` at a line sanitizes its result. -/
def cleans (s : Sanitizers) (name file : String) (line : Int) : Bool :=
  let last := Name.lastSegment name
  s.names.contains name || s.names.contains last || s.validators.contains ⟨file, line, last⟩

/-- Whether a span lies inside one of the spans. -/
def covered (spans : List Span) (s : Span) : Bool :=
  spans.any fun o => o.start ≤ s.start && s.stop ≤ o.stop

/-- The outermost calls that satisfy `removed`, in order; `done` are those found already. -/
def cutCalls (removed : Call → Bool) (done : List Call) : List Call → List Call
  | [] => done
  | c :: cs =>
    if !covered (done.map (·.span)) c.span && removed c then cutCalls removed (done ++ [c]) cs
    else cutCalls removed done cs

/-- The calls that are removed from an expression: outermost sanitizer calls, and calls that `cut`
accepts. -/
def removedCalls (s : Sanitizers) (e : List UInt8) (file : String) (line : Int)
    (cut : Call → Bool) : List Call :=
  cutCalls (fun c => s.cleans c.name file line || cut c) [] (Expr.calls e)

/-- The names that an expression reads once sanitizer calls, and calls that `cut` accepts, are
removed from it. -/
def residualNames (s : Sanitizers) (e : List UInt8) (file : String) (line : Int)
    (cut : Call → Bool) : List String :=
  Expr.identifiers (Expr.blank e ((s.removedCalls e file line cut).map (·.span)))

/-- No call is cut beside those of sanitizers. -/
def noCut : Call → Bool := fun _ => false

/-- Whether an expression has a call that a sanitizer matches. -/
def removesAny (s : Sanitizers) (e : List UInt8) (file : String) (line : Int) : Bool :=
  (Expr.calls e).any fun c => s.cleans c.name file line

end Sanitizers

/-- The distinct recorded names.  When calls were cut out of the expression, only those related to
a name that it still reads. -/
def filterRecorded (recorded residual : List String) (cut : Bool) : List String :=
  firsts (recorded.filter fun r => !cut || residual.any (Name.related · r))

end TaintFlow
