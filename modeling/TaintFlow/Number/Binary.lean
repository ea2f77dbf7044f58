/-!
# Binary floating-point numbers

A floating-point number is a significand times a power of two, an infinity or no number at all.
The program only reads, truncates and prints such numbers, so they are kept in this exact form
and every operation is arithmetic on natural numbers.

## Main definitions

* `Precision` — how many bits a significand has and how small the exponent gets.
* `Binary` — the numbers.
* `Binary.ofRatio` — the number nearest to a quotient, a tie going to the even significand.
* `Binary.truncate` — the whole part as a 64-bit integer.
-/

namespace TaintFlow

/-- A power of ten. -/
def tenTo (n : Nat) : Nat :=
  Nat.pow 10 n

/-- The shape of a binary format. -/
structure Precision where
  /-- How many bits a full significand has. -/
  bits : Nat
  /-- The exponent of the smallest positive number. -/
  minExponent : Int
  /-- The largest exponent of a full significand. -/
  maxExponent : Int
  deriving DecidableEq, Repr

/-- Double precision. -/
def Precision.double : Precision := ⟨53, -1074, 971⟩

/-- Single precision. -/
def Precision.single : Precision := ⟨24, -149, 104⟩

/-- A floating-point number. -/
inductive Binary where
  /-- `significand * 2 ^ exponent`, with its sign; zero has the significand 0. -/
  | finite (negative : Bool) (significand : Nat) (exponent : Int)
  /-- An infinity. -/
  | infinite (negative : Bool)
  /-- Not a number. -/
  | undefined
  deriving DecidableEq, Repr, Inhabited

namespace Binary

/-- Positive zero. -/
def zero : Binary := .finite false 0 0

/-- A quotient of naturals rounded to the nearest one, a tie going to the even one. -/
def roundDiv (num den : Nat) : Nat :=
  let q := num / den
  let r := num % den
  if 2 * r < den then q
  else if den < 2 * r then q + 1
  else if q % 2 == 0 then q else q + 1

/-- The quotient `num / den` scaled by `2 ^ (-e)`, as a pair of naturals. -/
def scaled (num den : Nat) (e : Int) : Nat × Nat :=
  if 0 ≤ e then (num, den <<< e.toNat) else (num <<< (-e).toNat, den)

/-- The exponent at which `num / den` has a full significand, not below the smallest one. -/
def fitExponent (p : Precision) (num den : Nat) : Int :=
  let guess := (num.log2 : Int) - den.log2 - (p.bits - 1)
  let (n, d) := scaled num den guess
  max p.minExponent (if n / d < 1 <<< (p.bits - 1) then guess - 1 else guess)

/-- The number nearest to `num / den`, a tie going to the even significand; too large a
quotient gives an infinity. -/
def ofRatio (p : Precision) (negative : Bool) (num den : Nat) : Binary :=
  if num == 0 then .finite negative 0 0
  else
    let e := fitExponent p num den
    let (n, d) := scaled num den e
    let m := roundDiv n d
    if m == 0 then .finite negative 0 0
    else
      let (m, e) := if m == 1 <<< p.bits then (1 <<< (p.bits - 1), e + 1) else (m, e)
      if p.maxExponent < e then .infinite negative else .finite negative m e

/-- The number nearest to an integer. -/
def ofInt (n : Int) : Binary :=
  ofRatio .double (n < 0) n.natAbs 1

/-- The same number with the significand that double precision gives it. -/
def widen : Binary → Binary
  | .finite negative m e =>
    if 0 ≤ e then ofRatio .double negative (m <<< e.toNat) 1
    else ofRatio .double negative m (1 <<< (-e).toNat)
  | x => x

/-- The smallest 64-bit integer. -/
def minInt64 : Int := -0x8000000000000000

/-- The largest 64-bit integer. -/
def maxInt64 : Int := 0x7FFFFFFFFFFFFFFF

/-- The whole part of a finite number. -/
def wholePart (negative : Bool) (m : Nat) (e : Int) : Int :=
  let size : Nat := if 0 ≤ e then m <<< e.toNat else m >>> (-e).toNat
  if negative then -(size : Int) else size

/-- The whole part as a 64-bit integer.  What does not fit, an infinity and an undefined number
give the smallest integer. -/
def truncate : Binary → Int
  | .finite negative m e =>
    let n := wholePart negative m e
    if minInt64 ≤ n && n ≤ maxInt64 then n else minInt64
  | _ => minInt64

/-- Whether the number is a zero. -/
def isZero : Binary → Bool
  | .finite _ m _ => m == 0
  | _ => false

end Binary

end TaintFlow
