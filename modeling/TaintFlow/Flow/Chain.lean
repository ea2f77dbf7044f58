import TaintFlow.Finding
import TaintFlow.Text.Order

/-!
# Chains of provenance

A chain records how a taint came to where it is: the steps from its origin, how many calls it
crosses, and whether steps were left out because it crosses too many.  Chains are ordered, and for
every fact the analysis keeps the least chain, which is complete if possible, and then shortest.

## Main definitions

* `Flow.Step`, `Flow.Chain` — steps and non-empty chains of them, newest step first.
* `Flow.Chain.push`, `Flow.Chain.append` — one more step, and a whole chain more.
* `Flow.compareChains` — the order of chains.
* `Flow.Best` — the best chain per key.
-/

namespace TaintFlow.Flow

/-- A step: what happened, in which function and block, at which statement, and where that is in
the code.  Functions, blocks and statements are given by position; -1 and -2 stand for places
before the first statement, and for none at all. -/
structure Step where
  kind : StepKind
  function : Int
  block : Int
  position : Int
  line : Int
  file : String
  detail : String
  deriving DecidableEq, Repr, Inhabited

/-- The order of steps, by one field after another. -/
def compareSteps (a b : Step) : Ordering :=
  (compareText a.kind.name b.kind.name).then <|
  (compareInt a.function b.function).then <|
  (compareInt a.block b.block).then <|
  (compareInt a.position b.position).then <|
  (compareInt a.line b.line).then <|
  (compareText a.file b.file).then (compareText a.detail b.detail)

/-- A non-empty chain of steps. -/
structure Chain where
  /-- The newest step. -/
  last : Step
  /-- The steps before it, newest first. -/
  before : List Step := []
  /-- How many calls the chain crosses. -/
  depth : Nat := 0
  /-- Whether steps were left out. -/
  truncated : Bool := false
  deriving DecidableEq, Repr, Inhabited

namespace Chain

/-- The chain with a single step. -/
def single (s : Step) : Chain :=
  { last := s }

/-- All steps, newest first. -/
def newestFirst (c : Chain) : List Step :=
  c.last :: c.before

/-- All steps, oldest first. -/
def steps (c : Chain) : List Step :=
  c.newestFirst.reverse

/-- The number of steps. -/
def length (c : Chain) : Nat :=
  c.before.length + 1

/-- The oldest step. -/
def first (c : Chain) : Step :=
  c.before.getLast?.getD c.last

/-- One more step. -/
def push (c : Chain) (s : Step) : Chain :=
  { c with last := s, before := c.newestFirst }

/-- A chain followed by another one, crossing `depth` calls in all. -/
def append (c tail : Chain) (depth : Nat) : Chain where
  last := tail.last
  before := tail.before ++ c.newestFirst
  depth := depth
  truncated := c.truncated || tail.truncated

/-- The chain with the given steps, oldest first. -/
def ofSteps? (steps : List Step) (depth : Nat) (truncated : Bool) : Option Chain :=
  match steps.reverse with
  | [] => none
  | last :: before => some { last, before, depth, truncated }

end Chain

/-- The order of chains: complete before truncated, then shorter, then fewer calls, then by the
steps, newest first. -/
def compareChains (a b : Chain) : Ordering :=
  (compareBool a.truncated b.truncated).then <|
  (compare a.length b.length).then <|
  (compare a.depth b.depth).then (compareLists compareSteps a.newestFirst b.newestFirst)

/-- Whether a chain is better than the one held so far, if any. -/
def better (candidate : Chain) (current : Option Chain) : Bool :=
  match current with
  | none => true
  | some c => compareChains candidate c == .lt

/-- Chains by key.  Of all chains offered for a key the best one is held. -/
structure Best (κ : Type) where
  entries : List (κ × Chain) := []
  deriving Repr, Inhabited

namespace Best

variable {κ : Type} [BEq κ]

/-- The chain held for a key. -/
def get? (m : Best κ) (k : κ) : Option Chain :=
  (m.entries.find? (·.1 == k)).map (·.2)

/-- Sets the chain of a key. -/
def put (k : κ) (c : Chain) : List (κ × Chain) → List (κ × Chain)
  | [] => [(k, c)]
  | e :: es => if e.1 == k then (k, c) :: es else e :: put k c es

/-- Offers a chain for a key. -/
def offer (m : Best κ) (k : κ) (c : Chain) : Best κ :=
  if better c (m.get? k) then ⟨put k c m.entries⟩ else m

/-- Offers all chains that another collection holds. -/
def join (m other : Best κ) : Best κ :=
  other.entries.foldl (fun m (k, c) => m.offer k c) m

/-- Whether another collection holds a chain that is better than the one held here. -/
def improvedBy (m other : Best κ) : Bool :=
  other.entries.any fun (k, c) => better c (m.get? k)

end Best

end TaintFlow.Flow
