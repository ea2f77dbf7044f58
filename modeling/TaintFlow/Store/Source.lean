import TaintFlow.Budget
import TaintFlow.Failure
import TaintFlow.Store.Value

/-!
# Fact sources

A source lists the columns of a table and reads chosen columns of all its rows.  Both may fail,
and both may change the state they run in, such as the budget for cancellation checks.

## Main definitions

* `Store.Rows` — the rows a reader took, and the failure that ended the reading early, if any.
* `Store.Source` — a source.
-/

namespace TaintFlow.Store

/-- The rows a reader took and the failure that ended the reading, if any. -/
structure Rows where
  rows : List (List Cell)
  failure : Option Failure
  deriving Inhabited

/-- How many rows a reader takes before it refuses one; `none` when it takes all. -/
abbrev Appetite := Option Nat

/-- The failure of a reader that refuses a row. -/
def refusal : Failure := .because "stop"

/-- A source of facts that runs in a state. -/
structure Source (σ : Type) where
  /-- The columns of a table in storage order; a table that does not exist has none. -/
  columns : String → StateM σ (Except Failure (List String))
  /-- One pass over the chosen columns of all rows. -/
  read : (table : String) → (columns : List String) → Appetite → StateM σ Rows
  /-- One check for cancellation. -/
  canceled : StateM σ Bool

end TaintFlow.Store
