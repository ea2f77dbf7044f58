import TaintFlow.Number.Binary

/-!
# The shortest decimal of a floating-point number

A double is written with the fewest digits that read back as the same number; among those the
nearest to it.  The layout of the digits is a record of its own.

## Main definitions

* `Decimal` — digits and the decimal exponent of the first one.
* `Binary.shortest` — the fewest digits that read back.
* `Layout.general` — plain notation for middle exponents, else one digit, a point and an
  exponent of at least two digits.
-/

namespace TaintFlow

/-- A positive decimal number: `digits * 10 ^ exponent`. -/
structure Decimal where
  digits : Nat
  exponent : Int
  deriving DecidableEq, Repr

namespace Binary

/-- `a * 2 ^ e` against `d * 10 ^ k`. -/
def compareDecimal (a : Nat) (e : Int) (d : Nat) (k : Int) : Ordering :=
  compare ((a <<< e.toNat) * tenTo (-k).toNat) ((d * tenTo k.toNat) <<< (-e).toNat)

/-- Whether a decimal reads back as `m * 2 ^ e`: it lies between the midpoints to the two
neighbours, which count when `m` is even. -/
def readsBack (m : Nat) (e : Int) (x : Decimal) : Bool :=
  let narrow := m == 1 <<< 52 && -1074 < e
  let low := if narrow then compareDecimal (4 * m - 1) (e - 2) x.digits x.exponent
    else compareDecimal (2 * m - 1) (e - 1) x.digits x.exponent
  let high := compareDecimal (2 * m + 1) (e - 1) x.digits x.exponent
  if m % 2 == 0 then low.isLE && high.isGE else low == .lt && high == .gt

/-- The decimal exponent of the first digit of `m * 2 ^ e`, found from an estimate. -/
def leadingExponent (m : Nat) (e : Int) : Int :=
  let guess := ((m.log2 : Int) + e) * 30103 / 100000
  if compareDecimal m e 1 (guess + 1) != .lt then guess + 1
  else if compareDecimal m e 1 guess != .lt then guess
  else guess - 1

/-- The largest decimal with exponent `k` that is not above `m * 2 ^ e`. -/
def floorAt (m : Nat) (e k : Int) : Nat :=
  ((m <<< e.toNat) * tenTo (-k).toNat) / (tenTo k.toNat <<< (-e).toNat)

/-- Whether the decimal `d + 1` is nearer to `m * 2 ^ e` than `d` is; both have exponent `k`. -/
def upperNearer (m : Nat) (e : Int) (d : Nat) (k : Int) : Bool :=
  compareDecimal (2 * m) e (2 * d + 1) k == .gt

/-- The decimal with `n` digits that reads back as `m * 2 ^ e`, the nearer one of two. -/
def candidate? (m : Nat) (e : Int) (lead : Int) (n : Nat) : Option Decimal :=
  let k := lead - n + 1
  let d := floorAt m e k
  let below := readsBack m e ⟨d, k⟩
  let above := readsBack m e ⟨d + 1, k⟩
  if below && above then some ⟨if upperNearer m e d k then d + 1 else d, k⟩
  else if below then some ⟨d, k⟩
  else if above then some ⟨d + 1, k⟩
  else none

/-- The fewest digits that read back as `m * 2 ^ e`; seventeen always do. -/
def shortest (m : Nat) (e : Int) : Decimal :=
  let lead := leadingExponent m e
  match (List.range' 1 17).findSome? (candidate? m e lead) with
  | some x => x
  | none => ⟨floorAt m e (lead - 16), lead - 16⟩

end Binary

/-- How the digits of a number are laid out. -/
structure Layout where
  /-- The smallest exponent of the first digit that is written in plain notation. -/
  plainFrom : Int
  /-- The first exponent above it that is not. -/
  plainBelow : Int
  /-- Whether a whole number in plain notation ends in `.0`. -/
  pointZero : Bool
  deriving DecidableEq, Repr

/-- Plain notation for first digits from ten-thousandths to hundred thousands. -/
def Layout.general : Layout := ⟨-4, 6, false⟩

/-- The digits of a decimal without the zeros at their end, and their exponent. -/
def Decimal.stripped (fuel : Nat) (x : Decimal) : Decimal :=
  match fuel with
  | 0 => x
  | fuel + 1 =>
    if x.digits % 10 == 0 && x.digits != 0 then
      Decimal.stripped fuel ⟨x.digits / 10, x.exponent + 1⟩
    else x

/-- A decimal exponent with its sign and at least two digits. -/
def exponentText (x : Int) : String :=
  let digits := toString x.natAbs
  (if x < 0 then "-" else "+") ++ (if digits.length < 2 then "0" ++ digits else digits)

/-- The text of a positive decimal. -/
def Layout.render (l : Layout) (x : Decimal) : String :=
  let x := x.stripped 20
  let ds := (toString x.digits).toList
  let lead := x.exponent + ds.length - 1
  if l.plainFrom ≤ lead && lead < l.plainBelow then
    if lead < 0 then
      "0." ++ String.ofList (List.replicate (-lead - 1).toNat '0' ++ ds)
    else
      let whole := lead.toNat + 1
      let front := ds.take whole ++ List.replicate (whole - ds.length) '0'
      let back := ds.drop whole
      if back.isEmpty then String.ofList front ++ (if l.pointZero then ".0" else "")
      else String.ofList (front ++ '.' :: back)
  else
    let body := match ds with
      | d :: more => if more.isEmpty then String.ofList [d] ++ (if l.pointZero then ".0" else "")
        else String.ofList (d :: '.' :: more)
      | [] => ""
    body ++ "e" ++ exponentText lead

/-- The text of a floating-point number. -/
def Binary.render (l : Layout) : Binary → String
  | .undefined => "NaN"
  | .infinite negative => if negative then "-Inf" else "+Inf"
  | .finite negative m e =>
    (if negative then "-" else "") ++
      (if m == 0 then (if l.pointZero then "0.0" else "0") else l.render (Binary.shortest m e))

/-- The text of a double as it stands in a cell. -/
def Binary.text (x : Binary) : String :=
  x.render .general

end TaintFlow
