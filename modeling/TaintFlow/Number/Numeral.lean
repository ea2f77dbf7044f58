import TaintFlow.Text.Blank
import TaintFlow.Text.Bytes
import TaintFlow.Number.Binary

/-!
# Numerals

The grammars of integer and floating-point numerals.  Integers have an optional sign; in the
general form a base mark (`0x`, `0o`, `0b` or a leading `0`) may precede the digits and `_` may
stand between digits.  Floating-point numerals are decimal or hexadecimal, with a point and an
exponent, or the words for infinity and for no number.

## Main definitions

* `Numeral.Outcome` — a value, a value out of range (with the nearest limit), or no numeral.
* `Numeral.decimal` — integers in base ten.
* `Numeral.general` — integers with base marks.
* `Numeral.binary` — floating-point numerals.
* `Numeral.truth?` — the words for true and false.
-/

namespace TaintFlow.Numeral

/-- What reading a numeral gives. -/
inductive Outcome (α : Type) where
  /-- A value. -/
  | value (a : α)
  /-- A numeral whose value does not fit; `limit` is the nearest value that does. -/
  | outOfRange (limit : α)
  /-- Not a numeral. -/
  | malformed
  deriving Repr, DecidableEq

/-- The value read, or the nearest limit, or `zero` for what is no numeral. -/
def Outcome.getD {α : Type} (zero : α) : Outcome α → α
  | .value a => a
  | .outOfRange a => a
  | .malformed => zero

/-- The value of a numeral that fits. -/
def Outcome.toOption {α : Type} : Outcome α → Option α
  | .value a => some a
  | _ => none

/-- Whether a numeral was read whose value fits. -/
def Outcome.isValue {α : Type} : Outcome α → Bool
  | .value _ => true
  | _ => false

/-- The value of a digit, letters counting from ten. -/
def digitValue? (c : Char) : Option Nat :=
  if '0' ≤ c && c ≤ '9' then some (c.toNat - 48)
  else if 'a' ≤ c && c ≤ 'z' then some (c.toNat - 87)
  else if 'A' ≤ c && c ≤ 'Z' then some (c.toNat - 55)
  else none

/-- The natural number that `n` followed by more digits spells in a base.  Reading stops at the
first digit that takes the number out of 64 bits, whatever follows it. -/
def digitsFrom (base n : Nat) : List Char → Outcome Nat
  | [] => .value n
  | c :: cs =>
    match digitValue? c with
    | none => .malformed
    | some d =>
      if base ≤ d then .malformed
      else if 0xFFFFFFFFFFFFFFFF < n * base + d then .outOfRange 0xFFFFFFFFFFFFFFFF
      else digitsFrom base (n * base + d) cs

/-- The natural number that digits spell in a base; there must be at least one digit. -/
def digits (base : Nat) (cs : List Char) : Outcome Nat :=
  if cs.isEmpty then .malformed else digitsFrom base 0 cs

/-- Whether underscores stand only between digits, a base mark counting as a digit.  `digit` is
whether the character before was a digit, `under` whether it was an underscore. -/
def separated (hex : Bool) : (digit under : Bool) → List Char → Bool
  | _, under, [] => !under
  | digit, under, c :: cs =>
    if c.isDigit || (hex && (Text.hexValue? c).isSome) then separated hex true false cs
    else if c == '_' then digit && separated hex false true cs
    else !under && separated hex false false cs

/-- Whether the underscores of a numeral are well placed. -/
def underscoresOk (cs : List Char) : Bool :=
  let body := match cs with
    | '+' :: r => r
    | '-' :: r => r
    | r => r
  match body with
  | '0' :: m :: r =>
    if m.toLower == 'b' || m.toLower == 'o' || m.toLower == 'x' then
      separated (m.toLower == 'x') true false r
    else separated false false false body
  | _ => separated false false false body

/-- Splits off the sign of a numeral. -/
def signed : List Char → Bool × List Char
  | '-' :: r => (true, r)
  | '+' :: r => (false, r)
  | r => (false, r)

/-- A signed number brought into the range of 64-bit integers. -/
def fit (negative : Bool) (n : Nat) : Outcome Int :=
  if negative then
    if n ≤ 0x8000000000000000 then .value (-(n : Int)) else .outOfRange Binary.minInt64
  else
    if n < 0x8000000000000000 then .value n else .outOfRange Binary.maxInt64

/-- A signed number brought into the range of 64-bit integers, for any outcome of reading its
digits. -/
def fitOutcome (negative : Bool) : Outcome Nat → Outcome Int
  | .value n => fit negative n
  | .outOfRange _ => .outOfRange (if negative then Binary.minInt64 else Binary.maxInt64)
  | .malformed => .malformed

/-- A 64-bit integer in base ten. -/
def decimalChars (cs : List Char) : Outcome Int :=
  let (negative, r) := signed cs
  fitOutcome negative (digits 10 r)

/-- A 64-bit integer in base ten. -/
def decimal (s : String) : Outcome Int :=
  decimalChars s.toList

/-- The base that the mark of a numeral stands for, and the text after the mark. -/
def baseMark : List Char → Nat × List Char
  | '0' :: m :: r =>
    if (m == 'x' || m == 'X') && !r.isEmpty then (16, r)
    else if (m == 'o' || m == 'O') && !r.isEmpty then (8, r)
    else if (m == 'b' || m == 'B') && !r.isEmpty then (2, r)
    else (8, m :: r)
  | ['0'] => (8, ['0'])
  | r => (10, r)

/-- The magnitude of a numeral with a base mark. -/
def magnitude (cs : List Char) : Outcome Nat :=
  let (base, r) := baseMark cs
  match digits base (r.filter (· != '_')) with
  | .value n => if r.contains '_' && !underscoresOk cs then .malformed else .value n
  | other => other

/-- A 64-bit integer with an optional base mark. -/
def general (s : String) : Outcome Int :=
  let (negative, r) := signed s.toList
  fitOutcome negative (magnitude r)

/-- A natural number below `2 ^ 64` with an optional base mark and no sign. -/
def generalNat (s : String) : Outcome Nat :=
  magnitude s.toList

/-- The digits of a significand: their value, how many stand after the point, whether there is
one at all, and the text that follows. -/
structure Significand where
  value : Nat := 0
  scale : Nat := 0
  any : Bool := false
  point : Bool := false

/-- Reads the digits of a significand, skipping underscores; a second point ends it. -/
def significand (base : Nat) (s : Significand) : List Char → Significand × List Char
  | [] => (s, [])
  | c :: cs =>
    if c == '_' then significand base s cs
    else if c == '.' then
      if s.point then (s, c :: cs) else significand base { s with point := true } cs
    else match digitValue? c with
      | some d =>
        if d < base then
          let value := s.value * base + d
          let scale := if s.point then s.scale + 1 else s.scale
          significand base { value, scale, any := true, point := s.point } cs
        else (s, c :: cs)
      | none => (s, c :: cs)

/-- The value of an exponent; digits past the fifth that matters are ignored. -/
def exponentValue (cs : List Char) : Nat :=
  cs.foldl (fun e c =>
    if c == '_' then e else if e < 10000 then e * 10 + (c.toNat - 48) else e) 0

/-- An exponent: a sign, a digit and more digits or underscores up to the end. -/
def exponent? (cs : List Char) : Option Int :=
  let (negative, r) := signed cs
  match r with
  | [] => none
  | d :: more =>
    if d.isDigit && more.all (fun c => c.isDigit || c == '_') then
      let e := exponentValue (d :: more)
      some (if negative then -(e : Int) else e)
    else none

/-- The number with significand `m` and decimal exponent `e`, rounded to a precision.  Exponents
far out of range are decided by the number of digits alone. -/
def ofDecimal (p : Precision) (negative : Bool) (m : Nat) (e : Int) : Binary :=
  if m == 0 then .finite negative 0 0
  else
    let lead := (Nat.toDigits 10 m).length + e
    if 320 < lead then .infinite negative
    else if lead < -400 then .finite negative 0 0
    else if 0 ≤ e then Binary.ofRatio p negative (m * tenTo e.toNat) 1
    else Binary.ofRatio p negative m (tenTo (-e).toNat)

/-- The number with significand `m` and binary exponent `e`, rounded to a precision. -/
def ofHexadecimal (p : Precision) (negative : Bool) (m : Nat) (e : Int) : Binary :=
  if m == 0 then .finite negative 0 0
  else
    let lead := m.log2 + e
    if 1100 < lead then .infinite negative
    else if lead < -1200 then .finite negative 0 0
    else if 0 ≤ e then Binary.ofRatio p negative (m <<< e.toNat) 1
    else Binary.ofRatio p negative m (1 <<< (-e).toNat)

/-- An infinity in a numeral with digits is a value out of range. -/
def ranged : Binary → Outcome Binary
  | .infinite negative => .outOfRange (.infinite negative)
  | x => .value x

/-- The words for infinity and for no number, in any case. -/
def word? (cs : List Char) : Option Binary :=
  let (negative, r) := signed cs
  let w := r.map Char.toLower
  if w == "inf".toList || w == "infinity".toList then some (.infinite negative)
  else if cs.map Char.toLower == "nan".toList then some .undefined
  else none

/-- A numeral in decimal or hexadecimal digits. -/
def digitsBinary (p : Precision) (cs : List Char) : Outcome Binary :=
  let (negative, r) := signed cs
  let (hex, body) := match r with
    | '0' :: x :: d :: more => if x.toLower == 'x' then (true, d :: more) else (false, r)
    | _ => (false, r)
  let (s, rest) := significand (if hex then 16 else 10) {} body
  if !s.any || (cs.contains '_' && !underscoresOk cs) then .malformed
  else match rest with
    | [] =>
      if hex then .malformed else ranged (ofDecimal p negative s.value (-(s.scale : Int)))
    | x :: after =>
      match exponent? after with
      | none => .malformed
      | some e =>
        if hex && x.toLower == 'p' then ranged (ofHexadecimal p negative s.value (e - 4 * s.scale))
        else if !hex && x.toLower == 'e' then ranged (ofDecimal p negative s.value (e - s.scale))
        else .malformed

/-- A floating-point numeral. -/
def binary (p : Precision) (s : String) : Outcome Binary :=
  match word? s.toList with
  | some x => .value x
  | none => digitsBinary p s.toList

/-- The words for true and false. -/
def truth? (s : String) : Option Bool :=
  if ["1", "t", "T", "TRUE", "true", "True"].contains s then some true
  else if ["0", "f", "F", "FALSE", "false", "False"].contains s then some false
  else none

end TaintFlow.Numeral
