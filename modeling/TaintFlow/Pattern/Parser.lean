import TaintFlow.Pattern.Basic
import TaintFlow.Text.Blank
import TaintFlow.Text.Bytes
import TaintFlow.Text.Script

/-!
# Reading patterns

The notation of regular expressions: literals, classes, groups, alternatives, repetitions, anchors
and flags.  A parser state holds the groups that are open; every step consumes at least one
character of the notation.

## Main definitions

* `PatternError` — why a notation is refused, with the part at fault.
* `Pattern.parse` — reads a notation.
-/

namespace TaintFlow

/-- Why the notation of a pattern is refused. -/
inductive PatternFault where
  | classRange
  | escape
  | namedCapture
  | perlSyntax
  | nestedRepeat
  | repeatCount
  | missingBracket
  | missingParen
  | missingArgument
  | trailingBackslash
  | unexpectedParen
  deriving DecidableEq, Repr

/-- The wording of a fault. -/
def PatternFault.text : PatternFault → String
  | .classRange => "invalid character class range"
  | .escape => "invalid escape sequence"
  | .namedCapture => "invalid named capture"
  | .perlSyntax => "invalid or unsupported Perl syntax"
  | .nestedRepeat => "invalid nested repetition operator"
  | .repeatCount => "invalid repeat count"
  | .missingBracket => "missing closing ]"
  | .missingParen => "missing closing )"
  | .missingArgument => "missing argument to repetition operator"
  | .trailingBackslash => "trailing backslash at end of expression"
  | .unexpectedParen => "unexpected )"

/-- A fault and the part of the notation it concerns. -/
structure PatternError where
  fault : PatternFault
  part : List Char
  deriving DecidableEq, Repr

/-- The text of an error. -/
def PatternError.text (e : PatternError) : String :=
  "error parsing regexp: " ++ e.fault.text ++ ": `" ++ String.ofList e.part ++ "`"

namespace Pattern

/-- What the flags of a notation say. -/
structure Flags where
  /-- Letters match both their cases. -/
  fold : Bool := false
  /-- The line anchors match at every line. -/
  lines : Bool := false
  /-- The dot matches a line end too. -/
  dotAll : Bool := false
  deriving DecidableEq, Repr

/-- A group that is open. -/
structure Group where
  /-- The flags to return to when the group is closed. -/
  saved : Flags := {}
  /-- The alternatives that are complete, newest first. -/
  done : List Pattern := []
  /-- The parts of the alternative being read, newest first. -/
  current : List Pattern := []

/-- The state of the parser: the innermost group, the groups around it, the flags in force, and
the rest of the notation at the last step, if that step was a repetition. -/
structure Reader where
  whole : List Char
  flags : Flags := {}
  inner : Group := {}
  outer : List Group := []
  lastRepeat : Option (List Char) := none

/-- One part after the other; `parts` is newest first. -/
def sequence (parts : List Pattern) : Pattern :=
  parts.foldl (fun acc p => match acc with
    | .empty => p
    | acc => .seq p acc) .empty

/-- What a group matches. -/
def Group.pattern (g : Group) : Pattern :=
  g.done.foldl (fun acc p => .either p acc) (sequence g.current)

/-- Adds a part to the alternative being read. -/
def Reader.push (r : Reader) (p : Pattern) : Reader :=
  { r with inner := { r.inner with current := p :: r.inner.current } }

/-- Adds a single character. -/
def Reader.literal (r : Reader) (n : Nat) : Reader :=
  r.push (.one { items := [{ ranges := [(n, n)], fold := r.flags.fold }] })

/-- Opens a group with new flags. -/
def Reader.openGroup (r : Reader) (flags : Flags) : Reader :=
  { r with inner := { saved := r.flags }, outer := r.inner :: r.outer, flags }

/-- An error about the first `n` characters of a text. -/
def refuse {α : Type} (fault : PatternFault) (text : List Char) (n : Nat) :
    Except PatternError α :=
  .error ⟨fault, text.take n⟩

/-! ### Repetitions -/

/-- A repeat count, without leading zeros, and the text after it; a count over eight digits is
`none`. -/
def count? (cs : List Char) : Option (Option Nat × List Char) :=
  let digits := cs.takeWhile Char.isDigit
  match digits with
  | [] => none
  | '0' :: _ :: _ => none
  | _ =>
    let n := digits.foldl (fun n c => n * 10 + (c.toNat - 48)) 0
    some (if digits.length ≤ 9 then some n else none, cs.drop digits.length)

/-- The bounds of a repetition in braces: `none` for the whole when the text is no such
repetition, `none` for a number that is too large. -/
structure Bounds where
  min : Option Nat
  /-- The upper bound; `none` when there is no limit. -/
  max : Option (Option Nat)
  /-- How many characters the bounds take, braces included. -/
  size : Nat

/-- Reads the bounds of a repetition in braces. -/
def bounds? (cs : List Char) : Option Bounds :=
  match cs with
  | [] => none
  | _ :: body =>
    match count? body with
    | none => none
    | some (low, rest) =>
      match rest with
      | '\x7d' :: after => some ⟨low, some low, cs.length - after.length⟩
      | ',' :: '\x7d' :: after => some ⟨low, none, cs.length - after.length⟩
      | ',' :: more =>
        match count? more with
        | some (high, '\x7d' :: after) => some ⟨low, some high, cs.length - after.length⟩
        | _ => none
      | _ => none

/-- Whether nested repetitions make at most `n` copies. -/
def copiesWithin : Pattern → Nat → Bool
  | .rep p min max, n =>
    if max == some 0 then true
    else
      let m := max.getD min
      m ≤ n && copiesWithin p (if m == 0 then n else n / m)
  | .seq p q, n => copiesWithin p n && copiesWithin q n
  | .either p q, n => copiesWithin p n && copiesWithin q n
  | _, _ => true

/-- Repeats the last part of the alternative being read.  `text` starts at the operator, which
takes `size` characters; a question mark after it belongs to it. -/
def Reader.repeatLast (r : Reader) (text : List Char) (size min : Nat) (max : Option Nat)
    (counted : Bool) : Except PatternError (Reader × Nat) :=
  let size := if (text.drop size).head? == some '?' then size + 1 else size
  match r.lastRepeat with
  | some last => refuse .nestedRepeat last (last.length - (text.length - size))
  | none =>
    match r.inner.current with
    | [] => refuse .missingArgument text size
    | p :: before =>
      let p := .rep p min max
      if counted && (2 ≤ min || 2 ≤ max.getD 0) && !copiesWithin p 1000 then
        refuse .repeatCount text size
      else .ok ({ r with inner := { r.inner with current := p :: before } }, size)

/-- A repetition in braces, or a brace that stands for itself. -/
def Reader.braces (r : Reader) (text : List Char) : Except PatternError (Reader × Nat × Bool) :=
  match bounds? text with
  | none => .ok (r.literal 0x7B, 1, false)
  | some b =>
    match b.min, b.max with
    | some low, none =>
      if low ≤ 1000 then (r.repeatLast text b.size low none true).map fun (r, n) => (r, n, true)
      else refuse .repeatCount text b.size
    | some low, some (some high) =>
      if low ≤ high && high ≤ 1000 then
        (r.repeatLast text b.size low (some high) true).map fun (r, n) => (r, n, true)
      else refuse .repeatCount text b.size
    | _, _ => refuse .repeatCount text b.size

/-! ### Escapes and classes -/

/-- A letter or digit of ASCII. -/
def isAlnum (c : Char) : Bool :=
  c.isAlphanum

/-- An octal digit. -/
def isOctal (c : Char) : Bool :=
  '0' ≤ c && c ≤ '7'

/-- The value of octal digits. -/
def octal (cs : List Char) : Nat :=
  cs.foldl (fun n c => n * 8 + (c.toNat - 48)) 0

/-- Hexadecimal digits up to a closing brace: their value and how many characters were read, the
brace included.  A failure tells how many were read up to the fault. -/
def bracedHex (value read : Nat) : List Char → Except Nat (Nat × Nat)
  | [] => .error read
  | c :: cs =>
    if c == '\x7d' then if read == 0 then .error 1 else .ok (value, read + 1)
    else match Text.hexValue? c with
      | none => .error (read + 1)
      | some d =>
        if 0x10FFFF < value * 16 + d then .error (read + 1)
        else bracedHex (value * 16 + d) (read + 1) cs

/-- A character escape at the front of `text`: its code point and how many characters it takes. -/
def escape (text : List Char) : Except PatternError (Nat × Nat) :=
  match text.drop 1 with
  | [] => .error ⟨.trailingBackslash, []⟩
  | c :: rest =>
    if c == 'x' then
      match rest with
      | [] => refuse .escape text 2
      | '\x7b' :: more =>
        match bracedHex 0 0 more with
        | .ok (n, read) => .ok (n, 3 + read)
        | .error read => refuse .escape text (3 + read)
      | a :: more =>
        match Text.hexValue? a, more.head?.bind Text.hexValue? with
        | some x, some y => .ok (16 * x + y, 4)
        | _, _ => refuse .escape text 4
    else if c == '0' || (isOctal c && (rest.head?.map isOctal).getD false) then
      let digits := c :: (rest.take 2).takeWhile isOctal
      .ok (octal digits, 1 + digits.length)
    else match c with
      | 'a' => .ok (0x07, 2)
      | 'f' => .ok (0x0C, 2)
      | 'n' => .ok (0x0A, 2)
      | 'r' => .ok (0x0D, 2)
      | 't' => .ok (0x09, 2)
      | 'v' => .ok (0x0B, 2)
      | c => if c.toNat < 0x80 && !isAlnum c then .ok (c.toNat, 2) else refuse .escape text 2

/-- The group that a class escape such as `\d` stands for. -/
def classEscape? (fold : Bool) : List Char → Option ClassItem
  | '\\' :: c :: _ =>
    let item (g : CharGroup) (negated : Bool) : Option ClassItem :=
      some { ranges := g.ranges, negated, fold }
    match c with
    | 'd' => item .digit false
    | 'D' => item .digit true
    | 's' => item .perlSpace false
    | 'S' => item .perlSpace true
    | 'w' => item .word false
    | 'W' => item .word true
    | _ => none
  | _ => none

/-- The group with a given name. -/
def namedGroup? : String → Option CharGroup
  | "alnum" => some .alnum
  | "alpha" => some .alpha
  | "ascii" => some .ascii
  | "blank" => some .blank
  | "cntrl" => some .cntrl
  | "digit" => some .digit
  | "graph" => some .graph
  | "lower" => some .lower
  | "print" => some .print
  | "punct" => some .punct
  | "space" => some .space
  | "upper" => some .upper
  | "word" => some .word
  | "xdigit" => some .xdigit
  | _ => none

/-- How many characters stand before the first `:]`. -/
def beforeColonBracket? : List Char → Option Nat
  | [] => none
  | c :: cs =>
    if c == ':' && cs.head? == some ']' then some 0 else (beforeColonBracket? cs).map (· + 1)

/-- A named class such as `[:alpha:]` at the front of a text, with the characters it takes. -/
def namedClass? (fold : Bool) (text : List Char) :
    Except PatternError (Option (ClassItem × Nat)) :=
  match text with
  | '[' :: ':' :: rest =>
    match beforeColonBracket? rest with
    | none => .ok none
    | some n =>
      let name := rest.take n
      let (negated, plain) := match name with
        | '^' :: more => (true, more)
        | more => (false, more)
      match namedGroup? (String.ofList plain) with
      | some g => .ok (some ({ ranges := g.ranges, negated, fold }, n + 4))
      | none => refuse .classRange text (n + 4)
  | _ => .ok none

/-- The characters of a Unicode class by its name: `any`, `ascii`, `assigned`, a general category or
a script. -/
def unicodeGroup? (fold : Bool) (name : String) : Option ClassItem :=
  match Text.looseName name with
  | "any" => some { ranges := CharGroup.any.ranges, fold }
  | "ascii" => some { ranges := CharGroup.ascii.ranges, fold }
  | "assigned" =>
    (Text.categoryRanges? "Cn").map fun ranges => { ranges, negated := true, fold }
  | _ =>
    (Text.categoryRanges? name <|> Text.scriptRanges? name).map fun ranges => { ranges, fold }

/-- A Unicode class such as `\pL` or `\P{Greek}` at the front of a text, with the characters it
takes.  A `^` before the name inverts the class, as the capital letter does. -/
def unicodeClass? (fold : Bool) (text : List Char) :
    Except PatternError (Option (ClassItem × Nat)) :=
  match text with
  | '\\' :: p :: rest =>
    if p == 'p' || p == 'P' then
      let (name, size) := match rest with
        | '\x7b' :: more =>
          let name := more.takeWhile (· != '\x7d')
          (name, if more.contains '\x7d' then name.length + 4 else text.length + 1)
        | other => (other.take 1, 3)
      let (inverted, plain) := match name with
        | '^' :: other => (true, other)
        | other => (false, other)
      match if text.length < size then none else unicodeGroup? fold (String.ofList plain) with
      | some item =>
        .ok (some ({ item with negated := item.negated != ((p == 'P') != inverted) }, size))
      | none => refuse .classRange text size
    else .ok none
  | _ => .ok none

/-- A single character of a class: its code point and how many characters it takes. -/
def classChar (whole text : List Char) : Except PatternError (Nat × Nat) :=
  match text with
  | [] => .error ⟨.missingBracket, whole⟩
  | '\\' :: _ => escape text
  | c :: _ => .ok (c.toNat, 1)

/-- A character or a range of characters in a class. -/
def classRange (fold : Bool) (whole text : List Char) : Except PatternError (ClassItem × Nat) := do
  let (low, n) ← classChar whole text
  match text.drop n with
  | '-' :: rest =>
    if rest.isEmpty || rest.head? == some ']' then
      return ({ ranges := [(low, low)], fold }, n)
    else
      let (high, m) ← classChar whole rest
      if high < low then refuse .classRange text (n + 1 + m)
      else return ({ ranges := [(low, high)], fold }, n + 1 + m)
  | _ => return ({ ranges := [(low, low)], fold }, n)

/-- The part of a class at the front of a text, with the characters it takes. -/
def classItem (fold : Bool) (whole text : List Char) : Except PatternError (ClassItem × Nat) := do
  match ← namedClass? fold text with
  | some found => return found
  | none =>
    match ← unicodeClass? fold text with
    | some found => return found
    | none =>
      match classEscape? fold text with
      | some item => return (item, 2)
      | none => classRange fold whole text

/-- The parts of a class up to its closing bracket, and how many characters they take, the bracket
included.  `skip` characters belong to a part that has been read; `first` is whether none has. -/
def classItems (fold : Bool) (whole : List Char) (skip : Nat) (first : Bool) :
    List Char → Except PatternError (List ClassItem × Nat)
  | [] => .error ⟨.missingBracket, whole⟩
  | c :: cs =>
    match skip with
    | k + 1 => (classItems fold whole k first cs).map fun (items, n) => (items, n + 1)
    | 0 =>
      if c == ']' && !first then .ok ([], 1)
      else do
        let (item, size) ← classItem fold whole (c :: cs)
        let (items, n) ← classItems fold whole (size - 1) false cs
        return (item :: items, n + 1)

/-- A class in brackets at the front of a text. -/
def charClass (fold : Bool) (text : List Char) : Except PatternError (CharClass × Nat) := do
  match text.drop 1 with
  | '^' :: rest =>
    let (items, n) ← classItems fold text 0 true rest
    return ({ items, negated := true }, n + 2)
  | rest =>
    let (items, n) ← classItems fold text 0 true rest
    return ({ items }, n + 1)

/-! ### Groups -/

/-- What the flags of a group say, and how they end. -/
structure FlagsEnd where
  flags : Flags
  /-- Whether a group follows, or only the flags change. -/
  group : Bool
  /-- How many characters were read. -/
  size : Nat

/-- Reads flags up to `:` or `)`.  `on` is the value they are set to, `seen` whether one was read
since the last sign.  A failure tells how many characters were read. -/
def groupFlags (flags : Flags) (on seen : Bool) (read : Nat) : List Char → Except Nat FlagsEnd
  | [] => .error read
  | c :: cs =>
    match c with
    | 'i' => groupFlags { flags with fold := on } on true (read + 1) cs
    | 'm' => groupFlags { flags with lines := on } on true (read + 1) cs
    | 's' => groupFlags { flags with dotAll := on } on true (read + 1) cs
    | 'U' => groupFlags flags on true (read + 1) cs
    | '-' => if on then groupFlags flags false false (read + 1) cs else .error (read + 1)
    | ':' => if on || seen then .ok ⟨flags, true, read + 1⟩ else .error (read + 1)
    | ')' => if on || seen then .ok ⟨flags, false, read + 1⟩ else .error (read + 1)
    | _ => .error (read + 1)

/-- Whether a text may name a group: letters, digits and underscores. -/
def isGroupName (cs : List Char) : Bool :=
  !cs.isEmpty && cs.all fun c => c == '_' || isAlnum c

/-- A group whose name starts after `start` characters. -/
def Reader.namedGroup (r : Reader) (text : List Char) (start : Nat) :
    Except PatternError (Reader × Nat) :=
  if text.contains '>' then
    let close := (text.takeWhile (· != '>')).length
    if isGroupName ((text.take close).drop start) then .ok (r.openGroup r.flags, close + 1)
    else refuse .namedCapture text (close + 1)
  else .error ⟨.namedCapture, text⟩

/-- An opening parenthesis followed by a question mark. -/
def Reader.specialGroup (r : Reader) (text : List Char) : Except PatternError (Reader × Nat) :=
  let body := text.drop 2
  if 4 < text.length && ['P', '<'].isPrefixOf body then r.namedGroup text 4
  else if 3 < text.length && ['<'].isPrefixOf body then r.namedGroup text 3
  else
    match groupFlags r.flags true false 0 body with
    | .error read => refuse .perlSyntax text (2 + read)
    | .ok e =>
      if e.group then .ok (r.openGroup e.flags, 2 + e.size)
      else .ok ({ r with flags := e.flags }, 2 + e.size)

/-- A closing parenthesis. -/
def Reader.closeGroup (r : Reader) : Except PatternError Reader :=
  match r.outer with
  | [] => .error ⟨.unexpectedParen, r.whole⟩
  | g :: outer =>
    let p := r.inner.pattern
    .ok ({ r with inner := g, outer, flags := r.inner.saved }.push p)

/-- A vertical bar. -/
def Reader.alternative (r : Reader) : Reader :=
  { r with inner := { r.inner with done := sequence r.inner.current :: r.inner.done, current := [] } }

/-! ### Steps -/

/-- How many characters stand before the first `\E`. -/
def beforeEnd? : List Char → Option Nat
  | [] => none
  | c :: cs =>
    if c == '\\' && cs.head? == some 'E' then some 0 else (beforeEnd? cs).map (· + 1)

/-- A backslash and what follows it. -/
def Reader.backslash (r : Reader) (text : List Char) : Except PatternError (Reader × Nat) :=
  match text.drop 1 with
  | 'A' :: _ => .ok (r.push (.anchor .beginText), 2)
  | 'b' :: _ => .ok (r.push (.anchor .wordBoundary), 2)
  | 'B' :: _ => .ok (r.push (.anchor .noWordBoundary), 2)
  | 'C' :: _ => refuse .escape text 2
  | 'z' :: _ => .ok (r.push (.anchor .endText), 2)
  | 'Q' :: rest =>
    let (size, taken) := match beforeEnd? rest with
      | some n => (n, n + 4)
      | none => (rest.length, rest.length + 2)
    .ok ((rest.take size).foldl (fun r c => r.literal c.toNat) r, taken)
  | _ => do
    match ← unicodeClass? r.flags.fold text with
    | some (item, n) => return (r.push (.one { items := [item] }), n)
    | none =>
      match classEscape? r.flags.fold text with
      | some item => return (r.push (.one { items := [item] }), 2)
      | none =>
        let (c, n) ← escape text
        return (r.literal c, n)

/-- One step at the front of `c :: cs`: the new state, how many characters it took, and whether it
was a repetition. -/
def Reader.step (r : Reader) (c : Char) (cs : List Char) :
    Except PatternError (Reader × Nat × Bool) :=
  let text := c :: cs
  let plain (x : Except PatternError (Reader × Nat)) : Except PatternError (Reader × Nat × Bool) :=
    x.map fun (r, n) => (r, n, false)
  let repetition (min : Nat) (max : Option Nat) : Except PatternError (Reader × Nat × Bool) :=
    (r.repeatLast text 1 min max false).map fun (r, n) => (r, n, true)
  match c with
  | '(' =>
    if cs.head? == some '?' then plain (r.specialGroup text)
    else .ok (r.openGroup r.flags, 1, false)
  | '|' => .ok (r.alternative, 1, false)
  | ')' => plain (r.closeGroup.map (·, 1))
  | '^' => .ok (r.push (.anchor (if r.flags.lines then .beginLine else .beginText)), 1, false)
  | '$' => .ok (r.push (.anchor (if r.flags.lines then .endLine else .endText)), 1, false)
  | '.' =>
    let newline : ClassItem := { ranges := [(10, 10)] }
    .ok (r.push (.one { items := if r.flags.dotAll then [] else [newline], negated := true }), 1,
      false)
  | '[' => plain ((charClass r.flags.fold text).map fun (s, n) => (r.push (.one s), n))
  | '*' => repetition 0 none
  | '+' => repetition 1 none
  | '?' => repetition 0 (some 1)
  | '\x7b' => r.braces text
  | '\\' => plain (r.backslash text)
  | c => .ok (r.literal c.toNat, 1, false)

/-- Reads the rest of a notation; its first `skip` characters belong to the last step. -/
def Reader.run (r : Reader) (skip : Nat) : List Char → Except PatternError Reader
  | [] => .ok r
  | c :: cs =>
    match skip with
    | k + 1 => r.run k cs
    | 0 =>
      match r.step c cs with
      | .error e => .error e
      | .ok (next, n, repeated) =>
        { next with lastRepeat := if repeated then some (c :: cs) else none }.run (n - 1) cs

/-- Reads a notation. -/
def parse (source : String) : Except PatternError Pattern := do
  let whole := source.toList
  let r ← Reader.run { whole } 0 whole
  if r.outer.isEmpty then return r.inner.pattern else .error ⟨.missingParen, whole⟩

end Pattern

end TaintFlow
