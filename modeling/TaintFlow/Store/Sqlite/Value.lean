import TaintFlow.Store.Value

/-!
# Values of a database file

A value of a database file has one of five storage classes whatever the type of its column.  A
reader that asks for another class gets the value converted: a text or a blob counts as the number
it begins with, and a number as its text.

## Main definitions

* `Sqlite.Stored` — the values.
* `Sqlite.Stored.cell` — all the ways in which a reader may see a value.
-/

namespace TaintFlow.Store.Sqlite

/-- A value of a database file. -/
inductive Stored where
  | null
  | integer (n : Int)
  | real (x : Binary)
  | text (s : String)
  | blob (bs : List UInt8)
  deriving DecidableEq, Repr, Inhabited

/-! ### Numbers at the front of a text -/

/-- The blanks that may stand in front of a number. -/
def isSpace (c : Char) : Bool :=
  c == ' ' || ('\t' ≤ c && c ≤ '\r')

/-- The digits at the front of a text, and what follows them. -/
def spanDigits (cs : List Char) : List Char × List Char :=
  (cs.takeWhile Char.isDigit, cs.dropWhile Char.isDigit)

/-- The sign at the front of a text, and what follows it. -/
def spanSign : List Char → List Char × List Char
  | '-' :: cs => (['-'], cs)
  | '+' :: cs => ([], cs)
  | cs => ([], cs)

/-- The exponent at the front of a text; none unless it has a digit. -/
def exponentChars : List Char → List Char
  | c :: cs =>
    let (sign, rest) := spanSign cs
    let ds := (spanDigits rest).1
    if (c == 'e' || c == 'E') && !ds.isEmpty then 'e' :: sign ++ ds else []
  | [] => []

/-- The integer at the front of a text, zero when there is none.  What does not fit in 64 bits
gives the nearest integer that does. -/
def leadingInt (s : String) : Int :=
  let (sign, rest) := spanSign (s.toList.dropWhile isSpace)
  (Numeral.decimalChars (sign ++ (spanDigits rest).1)).getD 0

/-- The numeral at the front of a text: a sign, digits with a point among them and an exponent. -/
def leadingNumeral (s : String) : String :=
  let (sign, rest) := spanSign (s.toList.dropWhile isSpace)
  let (whole, rest) := spanDigits rest
  let (part, rest) := match rest with
    | '.' :: more => (spanDigits more : List Char × List Char)
    | more => ([], more)
  if whole.isEmpty && part.isEmpty then "0"
  else String.ofList (sign ++ whole ++ '.' :: part ++ exponentChars rest)

/-- The number at the front of a text, zero when there is none. -/
def leadingReal (s : String) : Binary :=
  (Numeral.binary .double (leadingNumeral s)).getD .zero

/-! ### Texts of numbers -/

/-- Fifteen digits in plain notation below ten to the fifteenth, always with a point. -/
def layout : Layout := ⟨-4, 15, true⟩

/-- The fifteen digits nearest to `m * 2 ^ e`, the upper ones in a tie. -/
def fifteenDigits (m : Nat) (e : Int) : Decimal :=
  let k := Binary.leadingExponent m e - 14
  let d := Binary.floorAt m e k
  ⟨if Binary.compareDecimal (2 * m) e (2 * d + 1) k == .lt then d else d + 1, k⟩

/-- The text of a number. -/
def realText : Binary → String
  | .undefined => ""
  | .infinite negative => if negative then "-Inf" else "Inf"
  | .finite negative m e =>
    if m == 0 then "0.0" else (if negative then "-" else "") ++ layout.render (fifteenDigits m e)

/-- The whole part of a number, or the nearest 64-bit integer. -/
def realInt : Binary → Int
  | .undefined => 0
  | .infinite negative => if negative then Binary.minInt64 else Binary.maxInt64
  | .finite negative m e =>
    max Binary.minInt64 (min Binary.maxInt64 (Binary.wholePart negative m e))

namespace Stored

/-- The value that a number is stored as: what is no number is NULL. -/
def ofBinary : Binary → Stored
  | .undefined => .null
  | x => .real x

/-- The value as an integer. -/
def toInt : Stored → Int
  | .null => 0
  | .integer n => n
  | .real x => realInt x
  | .text s => leadingInt s
  | .blob bs => leadingInt (Text.ofBytes bs)

/-- The value as a floating-point number. -/
def toFloat : Stored → Binary
  | .null => .zero
  | .integer n => Binary.ofInt n
  | .real x => x
  | .text s => leadingReal s
  | .blob bs => leadingReal (Text.ofBytes bs)

/-- The value as a text. -/
def toText : Stored → String
  | .null => ""
  | .integer n => toString n
  | .real x => realText x
  | .text s => s
  | .blob bs => Text.ofBytes bs

/-- The value as a truth value: a text is a word for true, and all else is not zero. -/
def toBool : Stored → Bool
  | .text s => (Numeral.truth? (Text.trim s)).getD false
  | v => v.toInt != 0

/-- The value as bytes. -/
def toBytes? : Stored → Option (List UInt8)
  | .null => none
  | .blob bs => some bs
  | v => some (Text.bytes v.toText)

/-- All the ways in which a reader may see a value, each asked for alone. -/
def cell (v : Stored) : Cell where
  isNull := v == .null
  int := v.toInt
  float := v.toFloat
  text := v.toText
  bool := v.toBool
  bytes := v.toBytes?

/-- The value once its text has been asked for: from then on a blob counts as a text. -/
def afterText : Stored → Stored
  | .blob bs => .text (Text.ofBytes bs)
  | v => v

/-- All the ways in which a reader sees a value that asks for them one after another. -/
def cellInTurn (v : Stored) : Cell :=
  { v.cell with bool := v.afterText.toBool }

end Stored

end TaintFlow.Store.Sqlite
