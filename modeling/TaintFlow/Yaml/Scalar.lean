import TaintFlow.Number.Numeral
import TaintFlow.Text.Bytes

/-!
# Texts in YAML

A text is written plainly when it then reads back as the same text.  A text that would read as
something else is quoted, one with line breaks is written as a block, and one with characters that
cannot be shown is written with escapes.

## Main definitions

* `Yaml.readsAsText` — whether a plain text would be read as a text.
* `Yaml.Look` — what a text looks like to a reader of plain texts.
* `Yaml.scalar` — a text as it is written at an indentation.
-/

namespace TaintFlow.Yaml

/-! ### Texts that read as something else -/

/-- The words for true, false, nothing and numbers without digits. -/
def words : List String :=
  ["true", "True", "TRUE", "false", "False", "FALSE", "", "~", "null", "Null", "NULL",
   ".nan", ".NaN", ".NAN", ".inf", ".Inf", ".INF", "+.inf", "+.Inf", "+.INF",
   "-.inf", "-.Inf", "-.INF"]

/-- The words that older readers take for true and false. -/
def oldWords : List String :=
  ["y", "Y", "yes", "Yes", "YES", "on", "On", "ON", "n", "N", "no", "No", "NO", "off", "Off", "OFF"]

/-- One or two digits with a value in a range, and what follows them. -/
def smallNumber? (low high : Nat) (cs : List Char) : Option (Nat × List Char) :=
  let ds := (cs.takeWhile Char.isDigit).take 2
  let n := ds.foldl (fun n c => n * 10 + (c.toNat - 48)) 0
  if ds.isEmpty || n < low || high < n then none else some (n, cs.drop ds.length)

/-- What follows a given character. -/
def after? (c : Char) : List Char → Option (List Char)
  | d :: cs => if d == c then some cs else none
  | [] => none

/-- The number of days of a month. -/
def daysOf (year month : Nat) : Nat :=
  if month == 2 then (if year % 4 == 0 && (year % 100 != 0 || year % 400 == 0) then 29 else 28)
  else if [4, 6, 9, 11].contains month then 30 else 31

/-- What follows a date: a year of four digits, a month and a day. -/
def afterDate? (cs : List Char) : Option (List Char) := do
  let year := cs.takeWhile Char.isDigit
  if year.length != 4 then none
  let cs ← after? '-' (cs.drop 4)
  let (month, cs) ← smallNumber? 1 12 cs
  let cs ← after? '-' cs
  let value := year.foldl (fun n c => n * 10 + (c.toNat - 48)) 0
  let (_, cs) ← smallNumber? 1 (daysOf value month) cs
  return cs

/-- What follows a time of day with an optional fraction of a second. -/
def afterTime? (cs : List Char) : Option (List Char) := do
  let (_, cs) ← smallNumber? 0 23 cs
  let (_, cs) ← smallNumber? 0 59 (← after? ':' cs)
  let (_, cs) ← smallNumber? 0 59 (← after? ':' cs)
  match cs with
  | '.' :: d :: rest => if d.isDigit then some (rest.dropWhile Char.isDigit) else some cs
  | cs => some cs

/-- Whether a text is a time zone. -/
def isZone : List Char → Bool
  | ['Z'] => true
  | [s, a, b, ':', c, d] => (s == '+' || s == '-') && [a, b, c, d].all Char.isDigit
  | _ => false

/-- Whether a text is a date, with or without a time. -/
def isTimestamp (cs : List Char) : Bool :=
  match afterDate? cs with
  | none => false
  | some [] => true
  | some (c :: rest) =>
    match afterTime? rest with
    | none => false
    | some zone => if c == 'T' || c == 't' then isZone zone else c == ' ' && zone.isEmpty

/-- Whether a text is a decimal number as the format writes them: digits with a point among or
before them, and an exponent. -/
def isDecimal (cs : List Char) : Bool :=
  let (_, cs) := Numeral.signed cs
  let whole := cs.takeWhile Char.isDigit
  let rest := cs.dropWhile Char.isDigit
  let (part, rest) := match rest with
    | '.' :: more => (more.takeWhile Char.isDigit, more.dropWhile Char.isDigit)
    | more => ([], more)
  let exponentOk := match rest with
    | [] => true
    | e :: more =>
      let ds := (Numeral.signed more).2
      (e == 'e' || e == 'E') && !ds.isEmpty && ds.all Char.isDigit
  !(whole.isEmpty && part.isEmpty) && exponentOk

/-- Whether a text that begins with a digit or a sign is a number. -/
def isNumber (s : String) : Bool :=
  let digits := String.ofList (s.toList.filter (· != '_'))
  (Numeral.general digits).isValue || (Numeral.generalNat digits).isValue
    || (isDecimal digits.toList && (Numeral.binary .double digits).isValue)

/-- Whether groups of at most two digits below sixty follow, each after a colon, and then perhaps
a point with digits. -/
def isSexagesimalTail (fuel : Nat) (cs : List Char) : Bool :=
  match fuel, cs with
  | _, [] => true
  | fuel + 1, ':' :: a :: b :: rest =>
    if a.isDigit && b.isDigit && a ≤ '5' then isSexagesimalTail fuel rest
    else a.isDigit && isSexagesimalTail fuel (b :: rest)
  | _, [':', a] => a.isDigit
  | _, '.' :: rest => rest.all fun c => c.isDigit || c == '_'
  | _, _ => false

/-- Whether a text is a number in base sixty. -/
def isSexagesimal (s : String) : Bool :=
  match (Numeral.signed s.toList).2 with
  | d :: cs =>
    let rest := cs.dropWhile fun c => c.isDigit || c == '_'
    d.isDigit && rest.head? == some ':' && isSexagesimalTail rest.length rest
  | [] => false

/-- Whether a plain text would be read as a text, also by older readers. -/
def readsAsText (s : String) : Bool :=
  let other := match s.toList with
    | [] => true
    | c :: cs =>
      if c.isDigit || c == '+' || c == '-' then
        isTimestamp (c :: cs) || isNumber s || words.contains s
      else if c == '.' then words.contains s || (Numeral.binary .double s).isValue
      else words.contains s
  !other && !oldWords.contains s && !isSexagesimal s

/-! ### Texts that a reader of plain texts would not take -/

/-- Whether a character can be shown. -/
def isShown (c : Char) : Bool :=
  let n := c.toNat
  n == 0x0A || (0x20 ≤ n && n ≤ 0x7E) || (0xA0 ≤ n && n ≤ 0xFFFD && n != 0xFEFF)

/-- The line breaks. -/
def isBreak (c : Char) : Bool :=
  c == '\n' || c == '\r' || c == '\u0085' || c == '\u2028' || c == '\u2029'

/-- A blank or a tab, or the end of the text. -/
def endsWord : Option Char → Bool
  | none => true
  | some c => c == ' ' || c == '\t'

/-- What a text looks like to a reader of plain texts. -/
structure Look where
  /-- It holds something that has a meaning of its own in a block. -/
  indicators : Bool := false
  breaks : Bool := false
  special : Bool := false
  tabs : Bool := false
  spaceThenBreak : Bool := false
  breakThenSpace : Bool := false
  deriving Repr

/-- Characters that have a meaning of their own at the front of a text. -/
def frontIndicators : List Char :=
  "#,[]\x7b\x7d&*!|>'\"%@\x60".toList

/-- Whether a character has a meaning of its own, given its neighbours. -/
def isIndicator (before : Option Char) (c : Char) (next : Option Char) : Bool :=
  match before with
  | none => frontIndicators.contains c || ((c == '?' || c == ':' || c == '-') && endsWord next)
  | some b =>
    (c == ':' && endsWord next) || (c == '#' && (b == ' ' || b == '\t' || isBreak b))

/-- What a text looks like after the character `before`. -/
def Look.from (before : Option Char) (look : Look) : List Char → Look
  | [] => look
  | c :: cs =>
    Look.from (some c)
      { indicators := look.indicators || isIndicator before c cs.head?,
        breaks := look.breaks || isBreak c,
        special := look.special || (c != '\t' && !isShown c),
        tabs := look.tabs || c == '\t',
        spaceThenBreak := look.spaceThenBreak || (isBreak c && before == some ' '),
        breakThenSpace := look.breakThenSpace || (c == ' ' && before.any isBreak) } cs

/-- What a text looks like. -/
def look (cs : List Char) : Look :=
  let marked := "---".toList.isPrefixOf cs || "...".toList.isPrefixOf cs
  Look.from none { indicators := marked } cs

/-- Whether a character stands at an end of a text. -/
def atEnd (p : Char → Bool) (cs : List Char) : Bool :=
  cs.head?.any p || cs.getLast?.any p

/-- Whether a text may be written without quotes. -/
def plainAllowed (cs : List Char) : Bool :=
  let l := look cs
  !(atEnd (fun c => c == ' ' || isBreak c) cs || l.breakThenSpace || l.spaceThenBreak || l.tabs
    || l.special || l.breaks || l.indicators)

/-- Whether a text may be written in single quotes. -/
def singleAllowed (cs : List Char) : Bool :=
  let l := look cs
  !(l.breakThenSpace || l.spaceThenBreak || l.tabs || l.special)

/-- Whether a text may be written as a block. -/
def blockAllowed (cs : List Char) : Bool :=
  let l := look cs
  !(cs.getLast? == some ' ' || l.spaceThenBreak || l.special)

/-! ### Written forms -/

/-- A text in single quotes; a quote is written twice. -/
def singleQuoted (cs : List Char) : String :=
  "'" ++ String.join (cs.map fun c => if c == '\'' then "''" else String.singleton c) ++ "'"

/-- The letters of escapes. -/
def escapeLetter? (c : Char) : Option Char :=
  let n := c.toNat
  ([(0x00, '0'), (0x07, 'a'), (0x08, 'b'), (0x09, 't'), (0x0A, 'n'), (0x0B, 'v'), (0x0C, 'f'),
    (0x0D, 'r'), (0x1B, 'e'), (0x22, '"'), (0x5C, '\\'), (0x85, 'N'), (0x2028, 'L'),
    (0x2029, 'P')].find? (·.1 == n)).map (·.2)

/-- A hexadecimal number of a given width in capital letters. -/
def capitalHex (width n : Nat) : String :=
  String.ofList ((Text.hexNat width n).toList.map Char.toUpper)

/-- A character in double quotes. -/
def doubleChar (c : Char) : String :=
  if isShown c && !isBreak c && c != '"' && c != '\\' then String.singleton c
  else match escapeLetter? c with
    | some l => String.ofList ['\\', l]
    | none =>
      let n := c.toNat
      if n ≤ 0xFF then "\\x" ++ capitalHex 2 n
      else if n ≤ 0xFFFF then "\\u" ++ capitalHex 4 n
      else "\\U" ++ capitalHex 8 n

/-- A text in double quotes. -/
def doubleQuoted (cs : List Char) : String :=
  "\"" ++ String.join (cs.map doubleChar) ++ "\""

/-- What the head of a block says about the blanks before it and the line breaks at its end. -/
def blockHints (cs : List Char) : String :=
  let indent := if cs.head?.any (fun c => c == ' ' || isBreak c) then "2" else ""
  let chomp := match cs.reverse with
    | [] => "-"
    | c :: rest =>
      if !isBreak c then "-" else if rest.isEmpty || rest.head?.any isBreak then "+" else ""
  indent ++ chomp

/-- The lines of a block, indented unless they are empty, without the last line break. -/
def blockLines (indent : Nat) (cs : List Char) : String :=
  let body := if cs.getLast? == some '\n' then cs.dropLast else cs
  Text.join "\n" ((Text.splitList '\n' body).map fun line =>
    if line.isEmpty then "" else String.ofList (List.replicate indent ' ' ++ line))

/-- A text as it is written; the lines of a block have the given indentation. -/
def scalar (indent : Nat) (s : String) : String :=
  let cs := s.toList
  if cs.contains '\n' then
    if blockAllowed cs then "|" ++ blockHints cs ++ "\n" ++ blockLines indent cs
    else doubleQuoted cs
  else if !readsAsText s then doubleQuoted cs
  else if plainAllowed cs then s
  else if singleAllowed cs then singleQuoted cs
  else doubleQuoted cs

end TaintFlow.Yaml
