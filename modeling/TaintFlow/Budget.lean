/-!
# Cancellation

Long work asks now and then whether it has been cancelled.  A budget says how many more times the
answer is "carry on"; from then on it is "stop" for ever.

## Main definitions

* `Budget` — the number of checks that still answer "carry on".
* `Budget.poll` — one check.
-/

namespace TaintFlow

/-- How many more checks answer "carry on"; `none` when all of them do. -/
abbrev Budget := Option Nat

namespace Budget

/-- Work that is never cancelled. -/
def unlimited : Budget := none

/-- Whether the next check answers "stop". -/
def exhausted (b : Budget) : Bool :=
  b == some 0

/-- What is left of the budget after one check. -/
def spend (b : Budget) : Budget :=
  b.map (· - 1)

/-- One check: whether the work has been cancelled. -/
def poll : StateM Budget Bool := fun b =>
  (b.exhausted, b.spend)

@[simp]
theorem poll_unlimited : poll unlimited = (false, unlimited) := rfl

@[simp]
theorem poll_zero : poll (some 0) = (true, some 0) := rfl

@[simp]
theorem poll_succ (n : Nat) : poll (some (n + 1)) = (false, some n) := by
  simp [poll, exhausted, spend]

end Budget

end TaintFlow
