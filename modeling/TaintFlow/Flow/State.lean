import TaintFlow.Flow.Chain
import TaintFlow.Text.Name

/-!
# Taint states and summaries

A state says which slots are tainted, by what, and how the taint came there.  A summary says what
a function does with taint that enters through its parameters or arises inside it.

## Main definitions

* `Flow.Root` — what a taint stems from: a source, or a parameter of the function.
* `Flow.State` — the best chain per slot and root; `State.kill`, `State.read`.
* `Flow.Summary` — chains from parameters to sinks, from parameters to returns, and from sources
  to returns.
-/

namespace TaintFlow.Flow

/-- What a taint stems from. -/
inductive Root where
  | source (i : Nat)
  | param (i : Nat)
  deriving DecidableEq, Repr, Inhabited

/-- The tainted slots: the best chain per slot and root. -/
abbrev State := Best (String × Root)

namespace State

/-- Clears a slot and all slots below it. -/
def kill (s : State) (slot : String) : State :=
  ⟨s.entries.filter fun ((k, _), _) => !Name.under k slot⟩

/-- The roots that reading names observes, each with its best chain. -/
def read (s : State) (names : List String) : Best Root :=
  names.foldl (fun acc name => s.entries.foldl (fun acc ((slot, r), c) =>
    if Name.related slot name then acc.offer r c else acc) acc) {}

end State

/-- What a function does with taint. -/
structure Summary where
  /-- From a parameter to a sink. -/
  sinks : Best (Nat × Nat) := {}
  /-- From a parameter to a return. -/
  returns : Best Nat := {}
  /-- From a source inside the function to a return. -/
  intrinsic : Best Nat := {}
  deriving Repr, Inhabited

namespace Summary

/-- The best of two summaries. -/
def join (a b : Summary) : Summary where
  sinks := a.sinks.join b.sinks
  returns := a.returns.join b.returns
  intrinsic := a.intrinsic.join b.intrinsic

/-- Whether another summary holds a better chain. -/
def improvedBy (a b : Summary) : Bool :=
  a.sinks.improvedBy b.sinks || a.returns.improvedBy b.returns
    || a.intrinsic.improvedBy b.intrinsic

/-- The chains from a parameter to sinks. -/
def sinksOf (s : Summary) (param : Nat) : List (Nat × Chain) :=
  s.sinks.entries.filterMap fun ((p, k), c) => if p == param then some (k, c) else none

end Summary

end TaintFlow.Flow
