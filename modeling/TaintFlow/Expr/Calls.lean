import TaintFlow.Expr.Lexeme
import TaintFlow.Text.Order

/-!
# Names and calls of an expression

## Main definitions

* `chains` — the identifier chains of an expression with their places.
* `identifiers` — the distinct value names it reads.
* `closingParen?` — the offset of the parenthesis that closes the one at a given place.
* `calls` — the calls of an expression: a chain, blanks, and a balanced parenthesis.
* `blank` — an expression with some spans overwritten by blanks.
-/

namespace TaintFlow.Expr

/-- The words that never name a value. -/
def keywords : List String :=
  ["true", "false", "null", "undefined", "nil", "None", "True", "False",
   "new", "typeof", "instanceof", "await", "async", "return", "function",
   "const", "let", "var", "this", "self", "in", "of", "not", "and",
   "or", "is", "lambda", "if", "else", "yield", "void", "delete"]

/-- A half-open range of bytes. -/
structure Span where
  start : Nat
  stop : Nat
  deriving DecidableEq, Repr

/-- An identifier chain: its name, joined by dots, and its place. -/
structure Chain where
  name : String
  span : Span
  deriving DecidableEq, Repr

/-- The dotted name of the bytes of a chain: each connector becomes a dot.  Its other bytes are
those of identifiers, so `?` and `-` occur only in connectors and `>` only at the end of one. -/
def dotted : List UInt8 → List Char
  | [] => []
  | c :: cs =>
    if c == question || c == hyphen then dotted cs
    else if c == greater then '.' :: dotted cs
    else Char.ofNat c.toNat :: dotted cs

/-- The identifier chains among lexemes, the first of which starts at `start`. -/
def chainsFrom (start : Nat) : List Lexeme → List Chain
  | [] => []
  | l :: ls =>
    let stop := start + l.bytes.length
    match l.kind with
    | .name => ⟨String.ofList (dotted l.bytes), ⟨start, stop⟩⟩ :: chainsFrom stop ls
    | _ => chainsFrom stop ls

/-- The identifier chains of an expression that stand outside the text of literals. -/
def chains (e : List UInt8) : List Chain :=
  chainsFrom 0 (lexemes .chain [] e)

/-- The distinct value names that an expression reads, in the order of first appearance. -/
def identifiers (e : List UInt8) : List String :=
  firsts ((chains e).map (·.name) |>.filter (! keywords.contains ·))

/-- The place of the closing parenthesis that brings the depth back to zero. -/
def closingFrom (depth : Int) (start : Nat) : List Lexeme → Option Nat
  | [] => none
  | l :: ls =>
    let stop := start + l.bytes.length
    if l == ⟨.mark, [openParen]⟩ then closingFrom (depth + 1) stop ls
    else if l == ⟨.mark, [closeParen]⟩ then
      if depth == 1 then some start else closingFrom (depth - 1) stop ls
    else closingFrom depth stop ls

/-- Whether the byte before `start` belongs to an identifier. -/
def insideWord (e : List UInt8) (start : Nat) : Bool :=
  match start with
  | 0 => false
  | n + 1 => (e[n]?.map isIdentPart).getD false

/-- The offset of the parenthesis that closes the one at `start`.  Reading may also start
elsewhere, even inside a word, whose rest is then passed over. -/
def closingParen? (e : List UInt8) (start : Nat) : Option Nat :=
  let rest := e.drop start
  let skipped := if insideWord e start then (rest.takeWhile isIdentPart).length else 0
  closingFrom 0 (start + skipped) (lexemes .word [] (rest.drop skipped))

/-- A call: the dotted name of the callee, and the range from that name to the closing
parenthesis. -/
structure Call where
  name : String
  span : Span
  deriving DecidableEq, Repr

/-- The call that a chain begins, if it is followed by an opening parenthesis that is closed. -/
def callAt? (e : List UInt8) (c : Chain) : Option Call :=
  let gap := (e.drop c.span.stop).takeWhile fun b => b == space || b == tab
  let paren := c.span.stop + gap.length
  if e[paren]? == some openParen && !keywords.contains c.name then
    (closingParen? e paren).map fun stop => ⟨c.name, ⟨c.span.start, stop + 1⟩⟩
  else none

/-- The calls of an expression, ordered by where they start. -/
def calls (e : List UInt8) : List Call :=
  (chains e).filterMap (callAt? e)

/-- Overwrites the bytes from position `start` on that lie in one of the spans. -/
def blankFrom (spans : List Span) (start : Nat) : List UInt8 → List UInt8
  | [] => []
  | c :: cs =>
    (if spans.any (fun s => s.start ≤ start && start < s.stop) then space else c)
      :: blankFrom spans (start + 1) cs

/-- An expression with every span overwritten by blanks. -/
def blank (e : List UInt8) (spans : List Span) : List UInt8 :=
  blankFrom spans 0 e

end TaintFlow.Expr
