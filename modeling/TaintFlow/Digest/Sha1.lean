/-!
# The SHA-1 digest

A message is filled up to whole blocks of 64 bytes, and every block stirs five words of 32 bits.
The digest is the final words, most significant byte first.

## Main definitions

* `Digest.Chaining` — the five words.
* `Digest.compress` — what one block does to them.
* `Digest.sha1` — the 20 bytes of the digest of a message.
-/

namespace TaintFlow.Digest

/-- The five words that a block stirs. -/
structure Chaining where
  a : UInt32
  b : UInt32
  c : UInt32
  d : UInt32
  e : UInt32
  deriving DecidableEq, Repr, Inhabited

/-- The words before the first block. -/
def Chaining.start : Chaining :=
  ⟨0x67452301, 0xEFCDAB89, 0x98BADCFE, 0x10325476, 0xC3D2E1F0⟩

/-- The sum of two states, word by word. -/
def Chaining.add (x y : Chaining) : Chaining :=
  ⟨x.a + y.a, x.b + y.b, x.c + y.c, x.d + y.d, x.e + y.e⟩

/-- A word turned left by `n` bits. -/
def rotateLeft (w n : UInt32) : UInt32 :=
  (w <<< n) ||| (w >>> (32 - n))

/-- The bytes of a number in `width` bytes, most significant first. -/
def bigEndian (width n : Nat) : List UInt8 :=
  (List.range width).reverse.map fun i => UInt8.ofNat (n >>> (8 * i))

/-- The number that bytes spell, most significant first. -/
def ofBigEndian (bs : List UInt8) : Nat :=
  bs.foldl (fun n b => 256 * n + b.toNat) 0

/-- The message, a one bit, zeros up to a whole number of blocks, and the length in bits. -/
def padded (message : List UInt8) : List UInt8 :=
  let n := message.length
  message ++ 0x80 :: List.replicate ((119 - n % 64) % 64) 0 ++ bigEndian 8 (8 * n)

/-- Block `i` of 64 bytes as sixteen words. -/
def blockWords (bs : Array UInt8) (i : Nat) : Array UInt32 :=
  (Array.range 16).map fun j =>
    let p := 64 * i + 4 * j
    UInt32.ofNat (ofBigEndian ((List.range 4).map fun k => bs.getD (p + k) 0))

/-- The eighty words that a block expands to: each new one mixes four earlier ones. -/
def schedule (block : Array UInt32) : Array UInt32 :=
  (List.range 64).foldl (fun w i =>
    w.push (rotateLeft
      (w.getD (i + 13) 0 ^^^ w.getD (i + 8) 0 ^^^ w.getD (i + 2) 0 ^^^ w.getD i 0) 1)) block

/-- The mixing function and the constant of a round. -/
def roundMix (i : Nat) (s : Chaining) : UInt32 :=
  if i < 20 then ((s.b &&& s.c) ||| (~~~s.b &&& s.d)) + 0x5A827999
  else if i < 40 then (s.b ^^^ s.c ^^^ s.d) + 0x6ED9EBA1
  else if i < 60 then ((s.b &&& s.c) ||| (s.b &&& s.d) ||| (s.c &&& s.d)) + 0x8F1BBCDC
  else (s.b ^^^ s.c ^^^ s.d) + 0xCA62C1D6

/-- One of the eighty rounds of a block. -/
def round (w : Array UInt32) (s : Chaining) (i : Nat) : Chaining :=
  ⟨rotateLeft s.a 5 + roundMix i s + s.e + w.getD i 0, s.a, rotateLeft s.b 30, s.c, s.d⟩

/-- What one block does to the five words. -/
def compress (s : Chaining) (block : Array UInt32) : Chaining :=
  s.add ((List.range 80).foldl (round (schedule block)) s)

/-- The 20 bytes of the digest of a message. -/
def sha1 (message : List UInt8) : List UInt8 :=
  let bs := (padded message).toArray
  let s := (List.range (bs.size / 64)).foldl (fun s i => compress s (blockWords bs i)) .start
  [s.a, s.b, s.c, s.d, s.e].flatMap fun w => bigEndian 4 w.toNat

end TaintFlow.Digest
