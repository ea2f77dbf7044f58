import TaintFlow.Flow.Chain
import TaintFlow.Flow.Program

/-!
# Executable chains

A chain is executable when control can pass from each step to the next: into a function by a call,
back to a caller by a return, or along the control-flow graph of one function.  Nothing is asked
where steps were left out.
-/

namespace TaintFlow.Flow

namespace Program

/-- The function and its position for a number that may be out of range. -/
def functionAt? (p : Program) (n : Int) : Option (Nat × Function) :=
  if n < 0 then none else (p.function? n.toNat).map (n.toNat, ·)

/-- Whether a block number is that of the entry of a function. -/
def isEntryOf (f : Function) (block : Int) : Bool :=
  match f.entry with
  | some e => block == e
  | none => block == -1

/-- Whether control can pass from step `a` to step `b` of one function. -/
def passesWithin (f : Function) (a b : Step) : Bool :=
  if a.block == b.block then a.position < b.position || f.reaches a.block.toNat a.block.toNat
  else f.reaches a.block.toNat b.block.toNat

/-- Whether control can pass from step `a` to step `b`. -/
def passes (p : Program) (a b : Step) : Bool :=
  match p.functionAt? a.function, p.functionAt? b.function with
  | some (i, f), some (j, g) =>
    if a.kind == .call && b.kind == .parameter then p.called i j && isEntryOf g b.block
    else if a.kind == .ret && b.kind == .assignment && p.called j i then true
    else i == j && passesWithin f a b
  | _, _ => false

/-- The first pair of neighbouring steps between which control cannot pass. -/
def blockedAt? (p : Program) : List Step → Option (Step × Step)
  | a :: b :: rest =>
    if a.kind == .truncated || b.kind == .truncated || p.passes a b then p.blockedAt? (b :: rest)
    else some (a, b)
  | _ => none

/-- Why a chain is not executable, in words. -/
def blockedText (a b : Step) : String :=
  s!"{a.kind.name} at {a.file}:{a.line} cannot reach {b.kind.name} at {b.file}:{b.line}"

end Program

end TaintFlow.Flow
