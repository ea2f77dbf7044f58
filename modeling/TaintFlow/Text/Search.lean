/-!
# Searching a text

## Main definitions

* `Text.indexOf?` — where one list first stands in another one.
-/

namespace TaintFlow.Text

variable {α : Type} [BEq α] {needle : List α}

/-- Where `needle` first stands in a list. -/
def indexOf? (needle : List α) : List α → Option Nat
  | [] => if needle.isEmpty then some 0 else none
  | c :: cs =>
    if needle.isPrefixOf (c :: cs) then some 0 else (indexOf? needle cs).map (· + 1)

/-- What is not empty stands before the end. -/
theorem lt_length_of_indexOf? (hneedle : needle ≠ []) {l : List α} {n : Nat}
    (h : indexOf? needle l = some n) : n < l.length := by
  induction l generalizing n with
  | nil =>
    rw [indexOf?, if_neg (mt List.isEmpty_iff.mp hneedle)] at h
    cases h
  | cons c cs ih =>
    rw [indexOf?] at h
    split at h
    · cases h
      exact Nat.zero_lt_succ _
    · obtain ⟨m, hm, rfl⟩ := Option.map_eq_some_iff.mp h
      exact Nat.succ_lt_succ (ih hm)

end TaintFlow.Text
