/-!
# Texts as bytes

Offsets into an expression count the bytes of its UTF-8 form, so scanners work on lists of bytes.

## Main definitions

* `Text.bytes` — the UTF-8 bytes of a text.
* `Text.ofBytes` — the text that a list of bytes spells; a byte that belongs to no character
  reads as U+FFFD.
* `Text.hex`, `Text.unhex` — bytes as pairs of lower-case hexadecimal digits, and back.
-/

namespace TaintFlow.Text

/-- The UTF-8 bytes of a text. -/
def bytes (s : String) : List UInt8 :=
  s.toUTF8.data.toList

/-- A continuation byte carries six bits of its character. -/
def isTail (b : UInt8) : Bool :=
  0x80 ≤ b && b ≤ 0xBF

/-- The six bits of a continuation byte. -/
def tailBits (b : UInt8) : Nat :=
  b.toNat % 64

/-- The character at the front of `b :: rest` and the number of continuation bytes it takes, or
`none` when no well-formed character starts with `b`. -/
def decodeFirst (b : UInt8) (rest : List UInt8) : Option (Char × Nat) :=
  if b < 0x80 then some (Char.ofNat b.toNat, 0)
  else match rest with
    | c :: more =>
      if 0xC2 ≤ b && b ≤ 0xDF && isTail c then
        some (Char.ofNat ((b.toNat % 32) * 64 + tailBits c), 1)
      else match more with
        | d :: last =>
          if 0xE0 ≤ b && b ≤ 0xEF && isTail c && isTail d
              && (b != 0xE0 || 0xA0 ≤ c) && (b != 0xED || c ≤ 0x9F) then
            some (Char.ofNat ((b.toNat % 16) * 4096 + tailBits c * 64 + tailBits d), 2)
          else match last with
            | f :: _ =>
              if 0xF0 ≤ b && b ≤ 0xF4 && isTail c && isTail d && isTail f
                  && (b != 0xF0 || 0x90 ≤ c) && (b != 0xF4 || c ≤ 0x8F) then
                some (Char.ofNat ((b.toNat % 8) * 262144 + tailBits c * 4096
                  + tailBits d * 64 + tailBits f), 3)
              else none
            | [] => none
        | [] => none
    | [] => none

/-- The characters of a list of bytes.  `skip` bytes at the front belong to a character that has
been read already. -/
def decode (skip : Nat) : List UInt8 → List Char
  | [] => []
  | b :: rest =>
    match skip with
    | k + 1 => decode k rest
    | 0 =>
      match decodeFirst b rest with
      | some (c, n) => c :: decode n rest
      | none => '\uFFFD' :: decode 0 rest

/-- The text that a list of bytes spells; a byte that belongs to no character reads as U+FFFD. -/
def ofBytes (bs : List UInt8) : String :=
  String.ofList (decode 0 bs)

/-- The hexadecimal digit of a number below sixteen. -/
def hexDigit (n : Nat) : Char :=
  if n < 10 then Char.ofNat (48 + n) else Char.ofNat (87 + n)

/-- Bytes as pairs of lower-case hexadecimal digits. -/
def hex (bs : List UInt8) : String :=
  String.ofList (bs.flatMap fun b => [hexDigit (b.toNat / 16), hexDigit (b.toNat % 16)])

/-- The value of a hexadecimal digit. -/
def hexValue? (c : Char) : Option Nat :=
  if '0' ≤ c && c ≤ '9' then some (c.toNat - 48)
  else if 'a' ≤ c && c ≤ 'f' then some (c.toNat - 87)
  else if 'A' ≤ c && c ≤ 'F' then some (c.toNat - 55)
  else none

/-- The bytes of pairs of hexadecimal digits; what follows a malformed pair is dropped. -/
def unhexChars : List Char → List UInt8
  | a :: b :: rest =>
    match hexValue? a, hexValue? b with
    | some x, some y => UInt8.ofNat (16 * x + y) :: unhexChars rest
    | _, _ => []
  | _ => []

/-- The bytes that a text of hexadecimal digits spells. -/
def unhex (s : String) : List UInt8 :=
  unhexChars s.toList

/-- A number in hexadecimal with at least `width` digits. -/
def hexNat (width n : Nat) : String :=
  let digits := Nat.toDigits 16 n
  String.ofList (List.replicate (width - digits.length) '0' ++ digits)

end TaintFlow.Text
