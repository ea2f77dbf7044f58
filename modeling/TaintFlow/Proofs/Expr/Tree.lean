import TaintFlow.Expr.Calls

/-!
# Token trees of expressions

The lexical grammar of expressions as data.  Code is a sequence of tokens with blanks between them:
chains of identifiers, numbers, single marks, quoted literals, groups in brackets, template literals
with substitutions and formatted literals with fields, where substitutions and fields hold code
again, to any depth.  A tree carries the proofs that its texts belong to the grammar.

## Main definitions

* `Word`, `DottedName`, `NumberText`, `Punctuation`, `Quoted` — the tokens without code inside.
* `Region`, `Tree` — the trees of code, of template literals and of formatted literals.
* `Tree.render` — the text of a tree.
* `Tree.occurrences` — the chains of a tree with their places, and where the parenthesis that
  follows a chain is closed.
* `Tree.names`, `Tree.valueNames` — the names that stand in the code of a tree.

All trees are one inductive family, so that one induction goes through code and literals together.
-/

namespace TaintFlow.Expr

/-! ### Tokens without code inside -/

/-- A run of identifier bytes whose first byte satisfies `p`. -/
structure Word (p : UInt8 → Bool) where
  first : UInt8
  more : List UInt8
  first_ok : p first = true
  more_ok : more.all isIdentPart = true

def Word.bytes {p : UInt8 → Bool} (w : Word p) : List UInt8 :=
  w.first :: w.more

/-- What joins two identifiers of a chain. -/
inductive Connector where
  | dot
  | optional
  | arrow
  deriving DecidableEq, Repr

def Connector.bytes : Connector → List UInt8
  | .dot => [point]
  | .optional => [question, point]
  | .arrow => [hyphen, greater]

theorem Connector.mem_bytes {k : Connector} {b : UInt8} (h : b ∈ k.bytes) :
    b = point ∨ b = question ∨ b = hyphen ∨ b = greater := by
  cases k <;> simp only [bytes, List.mem_cons, List.not_mem_nil, or_false] at h <;> grind

/-- A chain of identifiers joined by `.`, `?.` or `->`. -/
structure DottedName where
  head : Word isIdentStart
  links : List (Connector × Word isIdentStart)

namespace DottedName

/-- The text of the links of a chain. -/
def linkBytes : List (Connector × Word isIdentStart) → List UInt8
  | [] => []
  | (k, w) :: links => k.bytes ++ w.bytes ++ linkBytes links

def bytes (n : DottedName) : List UInt8 :=
  n.head.bytes ++ linkBytes n.links

/-- The characters of a word. -/
def chars (w : Word isIdentStart) : List Char :=
  w.bytes.map fun b => Char.ofNat b.toNat

/-- The identifiers of a chain joined by dots. -/
def name (n : DottedName) : String :=
  String.ofList (chars n.head ++ n.links.flatMap fun (_, w) => '.' :: chars w)

end DottedName

/-- A number: a run that begins with a digit, and a second one behind a point. -/
structure NumberText where
  whole : Word isDigit
  fraction : Option (Word isDigit)

/-- The text of what stands behind the whole part of a number. -/
def NumberText.fractionBytes : Option (Word isDigit) → List UInt8
  | none => []
  | some w => point :: w.bytes

def NumberText.bytes (n : NumberText) : List UInt8 :=
  n.whole.bytes ++ fractionBytes n.fraction

/-- The kinds of brackets. -/
inductive Bracket where
  | round
  | square
  | curly
  deriving DecidableEq, Repr

def Bracket.opening : Bracket → UInt8
  | .round => openParen
  | .square => openSquare
  | .curly => openBrace

def Bracket.closing : Bracket → UInt8
  | .round => closeParen
  | .square => closeSquare
  | .curly => closeBrace

/-- The bytes that have a meaning of their own: blanks between tokens, brackets, quotes, backquotes
and backslashes. -/
def isReserved (b : UInt8) : Bool :=
  b == space || b == tab || b == openParen || b == closeParen || b == openSquare || b == closeSquare
    || b == openBrace || b == closeBrace || isQuote b || b == backquote || b == backslash

/-- The bytes that are tokens by themselves.  Directly in a field of a formatted literal a colon or
an exclamation mark is none, since it ends the code of the field. -/
def isPunctuation (field : Bool) (b : UInt8) : Bool :=
  !isIdentPart b && !isReserved b && !(field && (b == colon || b == bang))

/-- An operator or a punctuation mark. -/
structure Punctuation (field : Bool) where
  byte : UInt8
  ok : isPunctuation field byte = true

/-- The letters before the opening quote of a literal: two at most.  The literal has fields when one
of them says so. -/
structure LiteralStart (formatted : Bool) where
  letters : List UInt8
  short : letters.length ≤ 2
  letters_ok : letters.all isLiteralMark = true
  formats : letters.any isFormatMark = formatted

/-- The quote that delimits a literal, standing once or three times. -/
structure Delimiter where
  quote : UInt8
  triple : Bool
  quote_ok : isQuote quote = true
  deriving DecidableEq

def Delimiter.bytes (d : Delimiter) : List UInt8 :=
  if d.triple then [d.quote, d.quote, d.quote] else [d.quote]

/-- Whether a text may stand in a plain literal right before its closing delimiter: backslashes
escape the next byte, and the delimiter does not begin at any other byte. -/
def isQuotedText (quote : List UInt8) : List UInt8 → Bool
  | [] => true
  | c :: cs =>
    if c == backslash then
      match cs with
      | [] => false
      | _ :: cs' => isQuotedText quote cs'
    else !quote.isPrefixOf (c :: cs ++ quote) && isQuotedText quote cs

/-- A literal without code inside. -/
structure Quoted where
  start : LiteralStart false
  delimiter : Delimiter
  text : List UInt8
  text_ok : isQuotedText delimiter.bytes text = true

def Quoted.bytes (l : Quoted) : List UInt8 :=
  l.start.letters ++ (l.delimiter.bytes ++ (l.text ++ l.delimiter.bytes))

/-- A token without code inside.  `field` says that it stands directly in a field. -/
inductive Leaf (field : Bool) where
  | chain (n : DottedName)
  | number (n : NumberText)
  | mark (m : Punctuation field)
  | quoted (l : Quoted)

def Leaf.bytes {field : Bool} : Leaf field → List UInt8
  | .chain n => n.bytes
  | .number n => n.bytes
  | .mark m => [m.byte]
  | .quoted l => l.bytes

/-! ### The texts of literals with code inside -/

/-- Whether a text may stand in a template literal: it has no backquote and opens no substitution,
escaped bytes aside. -/
def isTemplateText : List UInt8 → Bool
  | [] => true
  | c :: cs =>
    if c == backslash then
      match cs with
      | [] => false
      | _ :: cs' => isTemplateText cs'
    else c != backquote && !(c == dollar && cs.head? == some openBrace) && isTemplateText cs

/-- A text part of a template literal. -/
structure TemplateText where
  bytes : List UInt8
  ok : isTemplateText bytes = true

/-- Whether a text may stand in a formatted literal right before `after`: the delimiter does not
begin in it and it opens no field, escaped bytes aside.  Doubled braces are text. -/
def isFormatText (quote after : List UInt8) : List UInt8 → Bool
  | [] => true
  | c :: cs =>
    if c == backslash then
      match cs with
      | [] => false
      | _ :: cs' => isFormatText quote after cs'
    else if quote.isPrefixOf (c :: cs ++ after) then false
    else if (c == openBrace || c == closeBrace) && cs.head? == some c then
      match cs with
      | [] => true
      | _ :: cs' => isFormatText quote after cs'
    else c != openBrace && isFormatText quote after cs

/-- A text part of a formatted literal, standing right before `after`. -/
structure FormatText (d : Delimiter) (after : List UInt8) where
  bytes : List UInt8
  ok : isFormatText d.bytes after bytes = true

/-- Whether braces are balanced, `depth` being open in front. -/
def isBalanced (depth : Nat) : List UInt8 → Bool
  | [] => depth == 0
  | c :: cs =>
    if c == openBrace then isBalanced (depth + 1) cs
    else if c == closeBrace then
      match depth with
      | 0 => false
      | d + 1 => isBalanced d cs
    else isBalanced depth cs

/-- Whether a text begins a conversion or a format specification: with a colon, or with an
exclamation mark that is not part of `!=`. -/
def isConversion : List UInt8 → Bool
  | [] => false
  | c :: cs => c == colon || (c == bang && cs.head? != some equals)

/-- What may follow the code of a field: a conversion, a format specification, both or nothing. -/
structure FieldTail where
  bytes : List UInt8
  begins : (bytes.isEmpty || isConversion bytes) = true
  balanced : isBalanced 0 bytes = true

/-! ### Trees -/

/-- The number of blanks before a token; at least one where tokens have to be `spaced`. -/
abbrev Gap (spaced : Bool) := { n : Nat // spaced = true → 0 < n }

/-- What a tree describes. -/
inductive Region where
  /-- Code, directly in a field of a formatted literal or not, its first token being spaced or
  not. -/
  | code (field spaced : Bool)
  /-- A template literal from some text part on, its closing backquote included. -/
  | template
  /-- A formatted literal from some text part on, its closing delimiter included. -/
  | format (d : Delimiter)

/-- Token trees.  Code is a sequence: each token comes with the blanks before it and with the code
behind it. -/
inductive Tree : Region → Type where
  | done {field spaced : Bool} (gap : Nat) : Tree (.code field spaced)
  | leaf {field spaced : Bool} (gap : Gap spaced) (l : Leaf field)
      (rest : Tree (.code field true)) : Tree (.code field spaced)
  | group {field spaced : Bool} (gap : Gap spaced) (b : Bracket)
      (inside : Tree (.code false true)) (rest : Tree (.code field true)) :
      Tree (.code field spaced)
  | template {field spaced : Bool} (gap : Gap spaced) (parts : Tree .template)
      (rest : Tree (.code field true)) : Tree (.code field spaced)
  | format {field spaced : Bool} (gap : Gap spaced) (start : LiteralStart true) (d : Delimiter)
      (parts : Tree (.format d)) (rest : Tree (.code field true)) : Tree (.code field spaced)
  | templateEnd (text : TemplateText) : Tree .template
  | substitution (text : TemplateText) (inside : Tree (.code false true))
      (more : Tree .template) : Tree .template
  | formatEnd {d : Delimiter} (text : FormatText d d.bytes) : Tree (.format d)
  | field {d : Delimiter} (text : FormatText d [openBrace]) (inside : Tree (.code true true))
      (tail : FieldTail) (more : Tree (.format d)) : Tree (.format d)

/-- An expression: code whose first token may stand at the very beginning. -/
abbrev Expression := Tree (.code false false)

/-- So many blanks. -/
def blanks (n : Nat) : List UInt8 :=
  List.replicate n space

namespace Tree

/-- The text of a tree. -/
def render : {r : Region} → Tree r → List UInt8
  | _, .done gap => blanks gap
  | _, .leaf gap l rest => blanks gap.1 ++ (l.bytes ++ rest.render)
  | _, .group gap b inside rest =>
    blanks gap.1 ++ (b.opening :: (inside.render ++ (space :: b.closing :: rest.render)))
  | _, .template gap parts rest => blanks gap.1 ++ (backquote :: (parts.render ++ rest.render))
  | _, .format gap start d parts rest =>
    blanks gap.1 ++ (start.letters ++ (d.bytes ++ (parts.render ++ rest.render)))
  | _, .templateEnd text => text.bytes ++ [backquote]
  | _, .substitution text inside more =>
    text.bytes ++ (dollar :: openBrace :: (inside.render ++ (closeBrace :: more.render)))
  | .format d, .formatEnd text => text.bytes ++ d.bytes
  | _, .field text inside tail more =>
    text.bytes ++ (openBrace :: (inside.render ++ (tail.bytes ++ (closeBrace :: more.render))))

/-- Where the group in round brackets that code at `start` begins with ends, if it does so. -/
def argumentsEnd? (start : Nat) : {r : Region} → Tree r → Option Nat
  | _, .group gap .round inside _ => some (start + gap.1 + inside.render.length + 3)
  | _, _ => none

end Tree

/-- A chain in its place.  If a parenthesis is the next token, `close` is the place behind the one
that closes it. -/
structure Occurrence where
  chain : Chain
  close : Option Nat
  deriving DecidableEq, Repr

/-- The chain that a token at `start` is, if it is one. -/
def Leaf.occurrences {field : Bool} (start : Nat) (close : Option Nat) :
    Leaf field → List Occurrence
  | .chain n => [⟨⟨n.name, ⟨start, start + n.bytes.length⟩⟩, close⟩]
  | _ => []

namespace Tree

/-- The chains in the code of a tree whose rendering begins at `start`. -/
def occurrences (start : Nat) : {r : Region} → Tree r → List Occurrence
  | _, .done _ => []
  | _, .leaf gap l rest =>
    let stop := start + gap.1 + l.bytes.length
    l.occurrences (start + gap.1) (rest.argumentsEnd? stop) ++ rest.occurrences stop
  | _, .group gap _ inside rest =>
    let first := start + gap.1 + 1
    inside.occurrences first ++ rest.occurrences (first + inside.render.length + 2)
  | _, .template gap parts rest =>
    let first := start + gap.1 + 1
    parts.occurrences first ++ rest.occurrences (first + parts.render.length)
  | _, .format gap letters d parts rest =>
    let first := start + gap.1 + letters.letters.length + d.bytes.length
    parts.occurrences first ++ rest.occurrences (first + parts.render.length)
  | _, .templateEnd _ => []
  | _, .substitution text inside more =>
    let first := start + text.bytes.length + 2
    inside.occurrences first ++ more.occurrences (first + inside.render.length + 1)
  | _, .formatEnd _ => []
  | _, .field text inside tail more =>
    let first := start + text.bytes.length + 1
    inside.occurrences first
      ++ more.occurrences (first + inside.render.length + tail.bytes.length + 1)

/-- The names in the code of a tree, in order. -/
def names : {r : Region} → Tree r → List String
  | _, .done _ => []
  | _, .leaf _ (.chain n) rest => n.name :: rest.names
  | _, .leaf _ _ rest => rest.names
  | _, .group _ _ inside rest => inside.names ++ rest.names
  | _, .template _ parts rest => parts.names ++ rest.names
  | _, .format _ _ _ parts rest => parts.names ++ rest.names
  | _, .templateEnd _ => []
  | _, .substitution _ inside more => inside.names ++ more.names
  | _, .formatEnd _ => []
  | _, .field _ inside _ more => inside.names ++ more.names

/-- The distinct names of a tree in the order of first appearance, keywords aside. -/
def valueNames {r : Region} (t : Tree r) : List String :=
  firsts (t.names.filter (! keywords.contains ·))

end Tree

/-- The call that a chain begins: a parenthesis follows it, and it is no keyword. -/
def Occurrence.call? (o : Occurrence) : Option Call :=
  if keywords.contains o.chain.name then none
  else o.close.map fun stop => ⟨o.chain.name, ⟨o.chain.span.start, stop⟩⟩

end TaintFlow.Expr
