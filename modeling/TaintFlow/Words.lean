/-!
# Sets of numbers in words

A set of numbers below a bound is kept in words of 64 bits: the number `i` is bit `i % 64` of word
`i / 64`.

## Main definitions

* `Words n` — the words for the numbers below `n`.
* `Words.has` — whether a number is in a set.
* `Words.add` — a set with one more number.

## Main results

* `Words.has_add` — the members after a number was added.
-/

namespace TaintFlow

/-- The words for a set of numbers below `n`. -/
abbrev Words (n : Nat) :=
  Vector UInt64 ((n + 63) / 64)

namespace Words

variable {n : Nat}

/-- The bit of a number in its word. -/
def mask (i : Nat) : UInt64 :=
  1 <<< UInt64.ofNat (i % 64)

/-- Whether a number is in a set.  Beyond the last word there are none. -/
def has (ws : Array UInt64) (i : Nat) : Bool :=
  ws.getD (i / 64) 0 &&& mask i != 0

/-- The set without members. -/
def empty (n : Nat) : Words n :=
  Vector.replicate _ 0

theorem div_lt {i : Nat} (h : i < n) : i / 64 < (n + 63) / 64 := by
  omega

/-- A set with one more number. -/
def add (ws : Words n) (i : Nat) (h : i < n) : Words n :=
  ws.set (i / 64) (ws[i / 64] ||| mask i)

theorem toNat_mask (i : Nat) : (mask i).toNat = 1 <<< (i % 64) := by
  have hlt : i % 64 < 64 := Nat.mod_lt i (by decide)
  have hword : (UInt64.ofNat (i % 64)).toNat = i % 64 :=
    UInt64.toNat_ofNat_of_lt' (Nat.lt_trans hlt (by decide))
  rw [mask, UInt64.toNat_shiftLeft, hword, Nat.mod_mod, UInt64.toNat_one, Nat.one_shiftLeft]
  exact Nat.mod_eq_of_lt (Nat.pow_lt_pow_right (by decide) hlt)

theorem testBit_mask (i k : Nat) : (mask i).toNat.testBit k = decide (i % 64 = k) := by
  rw [toNat_mask, Nat.one_shiftLeft, Nat.testBit_two_pow]

/-- A number is in a set when its bit is set. -/
theorem has_eq_testBit (ws : Array UInt64) (i : Nat) :
    has ws i = (ws.getD (i / 64) 0).toNat.testBit (i % 64) := by
  rw [Bool.eq_iff_iff, has, bne_iff_ne, ne_eq, ← UInt64.toNat_inj, UInt64.toNat_and,
    UInt64.toNat_zero]
  constructor
  · intro h
    -- a bit that is left can only be the one of the mask
    obtain ⟨b, hb⟩ := Nat.exists_testBit_of_ne_zero h
    rw [Nat.testBit_and, Bool.and_eq_true, testBit_mask, decide_eq_true_iff] at hb
    rw [hb.2]
    exact hb.1
  · intro h hzero
    have hbit : ((ws.getD (i / 64) 0).toNat &&& (mask i).toNat).testBit (i % 64) = true := by
      rw [Nat.testBit_and, h, testBit_mask, decide_eq_true rfl, Bool.true_and]
    rw [hzero, Nat.zero_testBit] at hbit
    cases hbit

@[simp] theorem has_empty (i : Nat) : has (empty n).toArray i = false := by
  rw [has_eq_testBit, empty, Vector.toArray_replicate, Array.getD_eq_getD_getElem?,
    Array.getElem?_replicate]
  split <;> simp

@[simp] theorem has_nil (i : Nat) : has #[] i = false := by
  rw [has_eq_testBit]
  simp

/-- **Adding a number adds this number only.** -/
theorem has_add (ws : Words n) {i : Nat} (h : i < n) (k : Nat) :
    has (ws.add i h).toArray k = (has ws.toArray k || k == i) := by
  have hsize : i / 64 < ws.toArray.size := by rw [ws.size_toArray]; exact div_lt h
  rw [has_eq_testBit, has_eq_testBit, add, Vector.toArray_set, Array.getD_eq_getD_getElem?,
    Array.getD_eq_getD_getElem?, Array.getElem?_set]
  split
  · next hword =>
    rw [← hword, Array.getElem?_eq_getElem hsize, Option.getD_some, Option.getD_some,
      UInt64.toNat_or, Nat.testBit_or, testBit_mask]
    -- in one word two numbers have the same bit only when they are equal
    congr 1
    rw [Bool.eq_iff_iff, decide_eq_true_iff, beq_iff_eq]
    omega
  · next hword =>
    have hne : (k == i) = false := by
      rw [beq_eq_false_iff_ne]
      rintro rfl
      exact hword rfl
    rw [hne, Bool.or_false]

/-- The number 69 stands in the second of two words. -/
example : ((empty 70).add 69 (by decide)).toArray = #[0, 32] := by decide +kernel

end Words

end TaintFlow
