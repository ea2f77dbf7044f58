import TaintFlow.Bits
import TaintFlow.Flow.Worklist

/-!
# The fixed point over all functions

Functions are analysed in rounds.  A round analyses every function that is due against what was
known before the round, then joins the results: new flows, better summaries, and parameters that
receive taint.  A function is due when the summary of a function it calls got better, or when one
of its parameters newly receives taint.

## Main definitions

* `Flow.Knowledge` — what is known after some rounds.
* `Flow.Knowledge.merge` — joins the result of one function.
* `Flow.Program.rounds` — runs rounds until no function is due.
-/

namespace TaintFlow.Flow

/-- What is known after some rounds. -/
structure Knowledge where
  summaries : Array Summary
  params : Array Nat
  /-- Whether each function is due. -/
  due : Array Bool
  /-- The best chain from a source to a sink. -/
  flows : Best (Nat × Nat) := {}
  rounds : Nat := 0
  deriving Inhabited

/-- What the rounds give. -/
structure RoundsResult where
  knowledge : Knowledge
  /-- Whether the rounds ended before the fixed point. -/
  incomplete : Bool
  deriving Inhabited

/-- Marks a function as due if it can be analysed. -/
def markDue (p : Program) (due : Array Bool) (i : Nat) : Array Bool :=
  if h : i < due.size then due.set i (((p.function? i).map (·.analyzable)).getD false) h else due

namespace Knowledge

/-- Nothing is known and every function that can be analysed is due. -/
def initial (p : Program) : Knowledge where
  summaries := Array.replicate p.code.functions.size {}
  params := Array.replicate p.code.functions.size 0
  due := p.code.functions.map (·.analyzable)

/-- The functions that are due, in ascending order. -/
def work (k : Knowledge) : List Nat :=
  (k.due.toList.zipIdx.filter (·.1)).map (·.2)

/-- The part of the knowledge that a round sees. -/
def snapshot (k : Knowledge) : Snapshot :=
  ⟨k.summaries, k.params⟩

/-- Joins a summary into the one known; if that makes it better, the callers are due. -/
def mergeSummary (p : Program) (k : Knowledge) (i : Nat) (s : Summary) : Knowledge :=
  let old := k.summaries.getD i {}
  if old.improvedBy s then
    { k with summaries := k.summaries.setIfInBounds i (old.join s),
             due := (p.callers i).foldl (markDue p) k.due }
  else k

/-- Adds a parameter that receives taint; if it is new, its function is due. -/
def addParam (p : Program) (k : Knowledge) (callee param : Nat) : Knowledge :=
  let old := k.params.getD callee 0
  let grown := old ||| Bits.single param
  if grown == old then k
  else { k with params := k.params.setIfInBounds callee grown, due := markDue p k.due callee }

/-- Joins the result of one function. -/
def merge (p : Program) (k : Knowledge) (r : FunctionResult) : Knowledge :=
  let k := { k with flows := k.flows.join r.records.flows }
  let k := k.mergeSummary p r.function r.records.summary
  r.records.args.foldl (fun k (callee, param) => k.addParam p callee param) k

end Knowledge

namespace Program

/-- The scope of a function under analysis. -/
def scope (p : Program) (maxHops : Nat) (snapshot : Snapshot) (i : Nat) : Scope :=
  ⟨p, snapshot, maxHops, i, (p.function? i).getD default⟩

/-- Analyses functions one after another against one snapshot. -/
def analyzeAll (p : Program) (maxHops : Nat) (snapshot : Snapshot) :
    List Nat → StateM Budget (List FunctionResult)
  | [] => pure []
  | i :: is => do
    let r ← (p.scope maxHops snapshot i).analyze
    let rs ← p.analyzeAll maxHops snapshot is
    return r :: rs

/-- One round: the knowledge after it, and whether it was cancelled. -/
def round (p : Program) (maxHops : Nat) (k : Knowledge) : StateM Budget (Knowledge × Bool) := do
  let results ← p.analyzeAll maxHops k.snapshot k.work
  let cleared := { k with due := k.due.map fun _ => false, rounds := k.rounds + 1 }
  return (results.foldl (Knowledge.merge p) cleared, results.any (·.cancelled))

/-- Runs at most `fuel` rounds.  There is a check for cancellation before every round. -/
def roundsFrom (p : Program) (maxHops : Nat) : Nat → Knowledge → StateM Budget RoundsResult
  | fuel, k => do
    if k.work.isEmpty then return ⟨k, false⟩
    if ← Budget.poll then return ⟨k, true⟩
    match fuel with
    | 0 => return ⟨k, true⟩
    | fuel + 1 =>
      let (k, cancelled) ← p.round maxHops k
      if cancelled then return ⟨k, true⟩
      p.roundsFrom maxHops fuel k

/-- Runs rounds until no function is due, at most `maxRounds` of them. -/
def rounds (p : Program) (maxHops maxRounds : Nat) : StateM Budget RoundsResult :=
  p.roundsFrom maxHops maxRounds (.initial p)

end Program

end TaintFlow.Flow
