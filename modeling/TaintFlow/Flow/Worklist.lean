import TaintFlow.Budget
import TaintFlow.Flow.Transfer

/-!
# The analysis of one function

The taint state at the start of every block is found by a worklist.  Processing a block applies
its statements and joins the result into the states of its successors; a successor whose state
gets better, or that has not been met before, is queued unless it is queued already.

## Main definitions

* `Flow.Work` — the states of blocks, the queue and the records so far.
* `Flow.Scope.process` — processes one queued block.
* `Flow.Scope.run` — processes blocks first in, first out, until the queue is empty or the work
  is cancelled.
* `Flow.Scope.analyze` — the analysis of a function.
-/

namespace TaintFlow.Flow

/-- The state of a worklist. -/
structure Work where
  /-- The state at the start of every block; none for a block that has not been met. -/
  states : Array (Option State)
  /-- The blocks to be processed. -/
  queue : List Nat
  records : Records := {}
  deriving Inhabited

/-- What the analysis of a function gives. -/
structure FunctionResult where
  function : Nat
  records : Records
  cancelled : Bool
  deriving Inhabited

namespace Scope

/-- The worklist before the first step: the entry block is queued. -/
def start (s : Scope) : Work :=
  match s.function.entry with
  | none => ⟨#[], [], {}⟩
  | some e =>
    ⟨(Array.replicate s.function.blocks.size none).setIfInBounds e (some s.entryState), [e], {}⟩

/-- The successors of a block. -/
def successors (s : Scope) (block : Nat) : List Nat :=
  ((s.function.blocks[block]?).map (·.succ)).getD []

/-- Joins a state into the one at the start of a block, and queues the block if that changes
something or the block is new. -/
def propagate (st : State) (w : Work) (block : Nat) : Work :=
  match w.states.getD block none with
  | none =>
    { w with states := w.states.setIfInBounds block (some ((({} : State)).join st)),
             queue := if w.queue.contains block then w.queue else w.queue ++ [block] }
  | some old =>
    { w with states := w.states.setIfInBounds block (some (old.join st)),
             queue := if old.improvedBy st && !w.queue.contains block then w.queue ++ [block]
               else w.queue }

/-- Processes a queued block. -/
def process (s : Scope) (w : Work) (block : Nat) : Work :=
  let st := (w.states.getD block none).getD {}
  let (st, records) := s.transferBlock block (st, w.records)
  (s.successors block).foldl (propagate st) { w with queue := w.queue.erase block, records }

/-- Processes blocks first in, first out.  There is a check for cancellation before every block;
running out of fuel counts as a cancellation. -/
def run (s : Scope) : Nat → Work → StateM Budget (Work × Bool)
  | fuel, w =>
    match w.queue with
    | [] => pure (w, false)
    | block :: _ =>
      match fuel with
      | 0 => pure (w, true)
      | fuel + 1 => do
        if ← Budget.poll then return (w, true)
        s.run fuel (s.process w block)

/-- How many blocks the analysis of one function processes at most. -/
def maxSteps : Nat := 0x10000000000000000

/-- The analysis of a function. -/
def analyze (s : Scope) : StateM Budget FunctionResult := do
  let (w, cancelled) ← s.run maxSteps s.start
  return ⟨s.index, w.records, cancelled⟩

end Scope

end TaintFlow.Flow
