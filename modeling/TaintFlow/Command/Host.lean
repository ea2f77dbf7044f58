import TaintFlow.Budget
import TaintFlow.Disk

/-!
# What a program runs on

A program reads its environment, uses a disk and a clock, and may be interrupted.

## Main definitions

* `Interrupt` — when the work is cancelled from outside.
* `Host` — the surroundings of a program.
* `Outcome` — what a program has written and how it ended; `Outcome.exitCode` is its status.
-/

namespace TaintFlow.Command

/-- When the work is cancelled from outside. -/
inductive Interrupt where
  | never
  /-- Before the program starts. -/
  | atOnce
  /-- After a number of checks. -/
  | afterChecks (n : Nat)
  deriving DecidableEq, Repr

/-- The checks that answer "carry on". -/
def Interrupt.budget : Interrupt → Budget
  | .never => .unlimited
  | .atOnce => some 0
  | .afterChecks n => some n

/-- The checks that answer "carry on" for work with a deadline of its own.  Such work watches the
deadline and sees only an interrupt that comes before it starts. -/
def Interrupt.underDeadline : Interrupt → Budget
  | .atOnce => some 0
  | _ => .unlimited

/-- The surroundings of a program. -/
structure Host (m : Type → Type) where
  disk : Disk m
  home : String
  /-- The environment: names and values. -/
  env : List (String × String)
  interrupt : Interrupt := .never
  /-- A name for this run that no other run has. -/
  runId : m String
  /-- The time in nanoseconds. -/
  clock : m Nat

/-- What a program has written and how it ended. -/
structure Outcome where
  output : String := ""
  failure : Option Failure := none
  /-- Whether a report was written that is only partial. -/
  incomplete : Bool := false
  deriving Repr

namespace Outcome

/-- A program that ends well. -/
def written (output : String) : Outcome :=
  { output }

/-- A program that fails. -/
def failed (f : Failure) : Outcome :=
  { failure := some f }

/-- A text that is written, unless there is none. -/
def ofExcept : Except Failure String → Outcome
  | .ok text => written text
  | .error f => failed f

/-- The status of a program: 130 after an interrupt, 3 after a partial report, 1 after any other
failure. -/
def exitCode (o : Outcome) : Nat :=
  match o.failure with
  | none => 0
  | some f => if f.isCanceled then 130 else if o.incomplete then 3 else 1

/-- What a program says about its failure; nothing after an interrupt. -/
def complaint (o : Outcome) : String :=
  match o.failure with
  | none => ""
  | some f => if f.isCanceled then "" else "Error: " ++ f.message ++ "\n"

end Outcome

end TaintFlow.Command
