import TaintFlow.Bits

/-!
# Members of sets of small numbers

## Main results

* `Bits.testBit_single` — the member of a set with one member.
* `Bits.or_single_eq_self` — adding a member that a set has changes nothing.
-/

namespace TaintFlow.Bits

theorem testBit_single (n i : Nat) : (single n).testBit i = decide (n = i) := by
  rw [single, Nat.one_shiftLeft, Nat.testBit_two_pow]

/-- Adding a member that a set has changes nothing. -/
theorem or_single_eq_self {s n : Nat} : s ||| single n = s ↔ s.testBit n = true := by
  constructor
  · intro h
    rw [← h, Nat.testBit_or, testBit_single]
    simp
  · intro h
    refine Nat.eq_of_testBit_eq fun i => ?_
    rw [Nat.testBit_or, testBit_single]
    by_cases hi : n = i
    · rw [← hi, h, Bool.true_or]
    · simp [hi]

end TaintFlow.Bits
