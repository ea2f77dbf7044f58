/-!
# Sets of small numbers

A set of small numbers is a natural number with a bit per member.

## Main definitions

* `Bits.single` — the set with one member.
* `Bits.closure` — adds what a map makes of a set until nothing is new.
-/

namespace TaintFlow.Bits

/-- The set with one member. -/
def single (n : Nat) : Nat :=
  1 <<< n

/-- Adds what a map makes of a set until nothing is new, at most `fuel` times. -/
def closure (f : Nat → Nat) : Nat → Nat → Nat
  | 0, s => s
  | fuel + 1, s =>
    let bigger := s ||| f s
    if bigger == s then s else closure f fuel bigger

end TaintFlow.Bits
