import TaintFlow.Bits
import TaintFlow.Text.Case

/-!
# Patterns

Regular expressions over texts and what they match.  Matching only asks whether a pattern matches
somewhere in a text, so a pattern is a map on sets of positions: from the places where a match may
start to the places where it may end.  A set of positions is a natural number with a bit per
position.

## Main definitions

* `Pattern` — regular expressions.
* `Pattern.ends` — where matches end, given where they start.
* `Pattern.matchesIn` — whether a pattern matches somewhere in a text.
-/

namespace TaintFlow

/-- The named groups of characters. -/
inductive CharGroup where
  | alnum | alpha | ascii | blank | cntrl | digit | graph | lower | print | punct | space | upper
  | word | xdigit
  /-- The white space of `\s`, which leaves out the vertical tab. -/
  | perlSpace
  /-- Every character. -/
  | any
  deriving DecidableEq, Repr

/-- The ranges of a group. -/
def CharGroup.ranges : CharGroup → List (Nat × Nat)
  | .alnum => [(0x30, 0x39), (0x41, 0x5A), (0x61, 0x7A)]
  | .alpha => [(0x41, 0x5A), (0x61, 0x7A)]
  | .ascii => [(0x00, 0x7F)]
  | .blank => [(0x09, 0x09), (0x20, 0x20)]
  | .cntrl => [(0x00, 0x1F), (0x7F, 0x7F)]
  | .digit => [(0x30, 0x39)]
  | .graph => [(0x21, 0x7E)]
  | .lower => [(0x61, 0x7A)]
  | .print => [(0x20, 0x7E)]
  | .punct => [(0x21, 0x2F), (0x3A, 0x40), (0x5B, 0x60), (0x7B, 0x7E)]
  | .space => [(0x09, 0x0D), (0x20, 0x20)]
  | .upper => [(0x41, 0x5A)]
  | .word => [(0x30, 0x39), (0x41, 0x5A), (0x5F, 0x5F), (0x61, 0x7A)]
  | .xdigit => [(0x30, 0x39), (0x41, 0x46), (0x61, 0x66)]
  | .perlSpace => [(0x09, 0x0A), (0x0C, 0x0D), (0x20, 0x20)]
  | .any => [(0x00, 0x10FFFF)]

/-- A part of a character class: ranges, up to case when `fold` is set, or what is outside
them. -/
structure ClassItem where
  ranges : List (Nat × Nat)
  negated : Bool := false
  fold : Bool := false
  deriving DecidableEq, Repr

/-- A set of characters. -/
structure CharClass where
  items : List ClassItem
  negated : Bool := false
  deriving DecidableEq, Repr

/-- Whether a code point lies in one of the ranges. -/
def inRanges (ranges : List (Nat × Nat)) (n : Nat) : Bool :=
  ranges.any fun (low, high) => low ≤ n && n ≤ high

/-- Whether a part of a class holds a character. -/
def ClassItem.holds (i : ClassItem) (c : Char) : Bool :=
  (if i.fold then (Text.caseClass c).any (inRanges i.ranges ·.toNat) else inRanges i.ranges c.toNat)
    != i.negated

/-- Whether a class holds a character. -/
def CharClass.holds (s : CharClass) (c : Char) : Bool :=
  s.items.any (·.holds c) != s.negated

/-- A place that a pattern may demand. -/
inductive Anchor where
  | beginText
  | endText
  | beginLine
  | endLine
  | wordBoundary
  | noWordBoundary
  deriving DecidableEq, Repr

/-- A regular expression. -/
inductive Pattern where
  /-- The empty text. -/
  | empty
  /-- One character of a class. -/
  | one (s : CharClass)
  /-- A place. -/
  | anchor (a : Anchor)
  /-- One after the other. -/
  | seq (p q : Pattern)
  /-- One or the other. -/
  | either (p q : Pattern)
  /-- At least `min` and at most `max` times. -/
  | rep (p : Pattern) (min : Nat) (max : Option Nat)
  deriving Inhabited, Repr

namespace Pattern

/-- The set of positions whose character satisfies `f`. -/
def mask (f : Char → Bool) : List Char → Nat
  | [] => 0
  | c :: cs => 2 * mask f cs + (if f c then 1 else 0)

/-- All positions of a text with `n` characters, its end included. -/
def allPlaces (n : Nat) : Nat :=
  Bits.single (n + 1) - 1

/-- The positions next to exactly one word character. -/
def boundaries (text : List Char) : Nat :=
  let words := mask (inRanges CharGroup.word.ranges ·.toNat) text
  (2 * words) ^^^ words

/-- The positions that an anchor demands. -/
def places (text : List Char) : Anchor → Nat
  | .beginText => 1
  | .endText => Bits.single text.length
  | .beginLine => 2 * mask (· == '\n') text ||| 1
  | .endLine => mask (· == '\n') text ||| Bits.single text.length
  | .wordBoundary => boundaries text
  | .noWordBoundary => allPlaces text.length ^^^ boundaries text

/-- Applies a map on sets `n` times. -/
def iterate (f : Nat → Nat) : Nat → Nat → Nat
  | 0, s => s
  | n + 1, s => iterate f n (f s)

/-- The union of a set with what up to `n` applications make of it. -/
def upTo (f : Nat → Nat) : Nat → Nat → Nat
  | 0, s => s
  | n + 1, s => s ||| upTo f n (f s)

/-- The positions where matches end that start at one of the positions `s`.  As many rounds as
there are positions complete a repetition without a limit. -/
def ends (text : List Char) : Pattern → Nat → Nat
  | .empty, s => s
  | .one c, s => 2 * (s &&& mask c.holds text)
  | .anchor a, s => s &&& places text a
  | .seq p q, s => ends text q (ends text p s)
  | .either p q, s => ends text p s ||| ends text q s
  | .rep p min max, s =>
    let start := iterate (ends text p) min s
    match max with
    | some m => upTo (ends text p) (m - min) start
    | none => Bits.closure (ends text p) (text.length + 1) start

/-- Whether a pattern matches somewhere in a text. -/
def matchesIn (p : Pattern) (text : String) : Bool :=
  ends text.toList p (allPlaces text.length) != 0

end Pattern

end TaintFlow
