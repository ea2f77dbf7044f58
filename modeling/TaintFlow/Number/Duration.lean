import TaintFlow.Number.Binary
import TaintFlow.Text.Bytes

/-!
# Durations

A duration is a number of nanoseconds.  It is written with the units that fit its size, and read
from a list of numbers with units.

## Main definitions

* `Duration` — a number of nanoseconds.
* `Duration.text` — `0s`, `1.5ms`, `1m1.5s`, `1h0m0s`.
* `Duration.Malformed` — why a text is no duration.
* `Duration.read` — the duration that a text spells.
-/

namespace TaintFlow

/-- A number of nanoseconds. -/
abbrev Duration := Int

namespace Duration

/-- The limit of durations. -/
def limit : Nat := 0x8000000000000000

/-- The nanoseconds of a second. -/
def second : Nat := 1000000000

/-- A point and the digits of `n`, a fraction of `places` digits, without the zeros at its end. -/
def fraction (places n : Nat) : String :=
  let digits := toString n
  let all := List.replicate (places - digits.length) '0' ++ digits.toList
  match (all.reverse.dropWhile (· == '0')).reverse with
  | [] => ""
  | ds => "." ++ String.ofList ds

/-- A number of nanoseconds in a unit of `10 ^ places` of them. -/
def inUnit (places n : Nat) (unit : String) : String :=
  toString (n / tenTo places) ++ fraction places (n % tenTo places) ++ unit

/-- The text of a natural number of nanoseconds. -/
def sizeText (n : Nat) : String :=
  if n == 0 then "0s"
  else if n < 1000 then inUnit 0 n "ns"
  else if n < 1000000 then inUnit 3 n "µs"
  else if n < second then inUnit 6 n "ms"
  else
    let minutes := n / second / 60
    let seconds := inUnit 9 (n % (60 * second)) "s"
    if minutes == 0 then seconds
    else if minutes < 60 then toString minutes ++ "m" ++ seconds
    else toString (minutes / 60) ++ "h" ++ toString (minutes % 60) ++ "m" ++ seconds

/-- The text of a duration. -/
def text (d : Duration) : String :=
  (if d < 0 then "-" else "") ++ sizeText d.natAbs

/-- Why a text is no duration. -/
inductive Malformed where
  | shape (s : String)
  | missingUnit (s : String)
  | unknownUnit (unit s : String)
  deriving DecidableEq, Repr

/-- A byte of a text that is no duration: only plain ASCII is shown as it is. -/
def shownByte (b : UInt8) : String :=
  if b < 0x20 || 0x80 ≤ b then "\\x" ++ Text.hex [b]
  else if b == 0x22 || b == 0x5C then "\\" ++ String.singleton (Char.ofNat b.toNat)
  else String.singleton (Char.ofNat b.toNat)

/-- A text that is no duration, in double quotes. -/
def shown (s : String) : String :=
  "\"" ++ String.join ((Text.bytes s).map shownByte) ++ "\""

/-- The text of a malformed duration. -/
def Malformed.text : Malformed → String
  | .shape s => "time: invalid duration " ++ shown s
  | .missingUnit s => "time: missing unit in duration " ++ shown s
  | .unknownUnit unit s => "time: unknown unit " ++ shown unit ++ " in duration " ++ shown s

/-- The nanoseconds of a unit. -/
def unit? : String → Option Nat
  | "ns" => some 1
  | "us" => some 1000
  | "µs" => some 1000
  | "μs" => some 1000
  | "ms" => some 1000000
  | "s" => some second
  | "m" => some (60 * second)
  | "h" => some (3600 * second)
  | _ => none

/-- Whether a character belongs to a number. -/
def isNumeric (c : Char) : Bool :=
  c == '.' || c.isDigit

/-- The number that digits spell. -/
def digitsValue (cs : List Char) : Nat :=
  cs.foldl (fun n c => 10 * n + (c.toNat - 48)) 0

/-- The digits of a fraction that count: their value and their number.  Once the value is about to
leave 63 bits the rest is dropped. -/
def fractionDigits (cs : List Char) : Nat × Nat :=
  let add (acc : Nat × Nat × Bool) (c : Char) : Nat × Nat × Bool :=
    let (n, k, full) := acc
    let next := 10 * n + (c.toNat - 48)
    if full || (limit - 1) / 10 < n || limit < next then (n, k, true) else (next, k + 1, false)
  let (n, k, _) := cs.foldl add (0, 0, false)
  (n, k)

/-- The product of a number and a double, as a double. -/
def product (n : Nat) (x : Binary) : Binary :=
  match Binary.ofInt n, x with
  | .finite _ a e, .finite _ b f =>
    if 0 ≤ e + f then Binary.ofRatio .double false ((a * b) <<< (e + f).toNat) 1
    else Binary.ofRatio .double false (a * b) (1 <<< (-(e + f)).toNat)
  | _, _ => .undefined

/-- The nanoseconds of a fraction of a unit, computed in double precision. -/
def fractionSize (n places unit : Nat) : Nat :=
  (product n (Binary.ofRatio .double false unit (tenTo places))).truncate.toNat

/-- One number with its unit: the nanoseconds and the text that follows. -/
def part (whole : String) (cs : List Char) : Except Malformed (Nat × List Char) :=
  let front := cs.takeWhile Char.isDigit
  let afterFront := cs.dropWhile Char.isDigit
  let (back, rest) := match afterFront with
    | '.' :: r => (r.takeWhile Char.isDigit, r.dropWhile Char.isDigit)
    | r => ([], r)
  let unit := rest.takeWhile (! isNumeric ·)
  let (n, places) := fractionDigits back
  if limit < digitsValue front || (front.isEmpty && back.isEmpty) then .error (.shape whole)
  else if unit.isEmpty then .error (.missingUnit whole)
  else match unit? (String.ofList unit) with
    | none => .error (.unknownUnit (String.ofList unit) whole)
    | some size =>
      let total := digitsValue front * size + fractionSize n places size
      if limit / size < digitsValue front || limit < total then .error (.shape whole)
      else .ok (total, rest.dropWhile (! isNumeric ·))

/-- The sum of numbers with units, added to `sum`.  Every number takes at least one character, so
`fuel` is the length of the text. -/
def parts (whole : String) (fuel sum : Nat) (cs : List Char) : Except Malformed Nat :=
  match fuel, cs with
  | _, [] => .ok sum
  | 0, _ => .error (.shape whole)
  | fuel + 1, cs =>
    match part whole cs with
    | .error e => .error e
    | .ok (n, rest) =>
      if limit < sum + n then .error (.shape whole) else parts whole fuel (sum + n) rest

/-- The duration that a text spells: an optional sign and numbers with units, or a bare zero. -/
def read (s : String) : Except Malformed Duration :=
  let (negative, body) := match s.toList with
    | '-' :: r => (true, r)
    | '+' :: r => (false, r)
    | r => (false, r)
  if body == ['0'] then .ok 0
  else if body.isEmpty then .error (.shape s)
  else match parts s body.length 0 body with
    | .error e => .error e
    | .ok n =>
      if negative then .ok (-(n : Int))
      else if n == limit then .error (.shape s)
      else .ok n

end Duration

end TaintFlow
