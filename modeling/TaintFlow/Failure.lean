import TaintFlow.Text.Quoted

/-!
# Failures

A failure is a root cause inside the activities it interrupted.  Its message names the activities
from the outside in, each followed by a colon, and the cause last.

## Main definitions

* `Failure` — the causes and the activities around them.
* `Failure.message` — the text shown to the user.
* `Failure.isCanceled` — whether the root cause is a cancellation.
-/

namespace TaintFlow

/-- Why something failed. -/
inductive Failure where
  /-- A table descriptor is malformed; `column` is empty when the whole table is at fault. -/
  | malformed (table column reason : String)
  /-- The fact store lacks a declared table, or a column when `column` is not empty. -/
  | missing (table column : String) (cause : Option String)
  /-- The work was cancelled. -/
  | canceled
  /-- Any other cause, in words. -/
  | because (text : String)
  /-- A failure during an activity. -/
  | during (activity : String) (cause : Failure)
  deriving DecidableEq, Repr, Inhabited

namespace Failure

/-- The text of a malformed descriptor. -/
def malformedText (table column reason : String) : String :=
  if table.isEmpty then "schema generation: " ++ reason
  else if column.isEmpty then "schema generation: table " ++ Text.quoted table ++ ": " ++ reason
  else "schema generation: table " ++ Text.quoted table ++ " column " ++ Text.quoted column
    ++ ": " ++ reason

/-- The text of a table or column that the fact store lacks. -/
def missingText (table column : String) (cause : Option String) : String :=
  (if column.isEmpty then
    "schema load: table " ++ Text.quoted table ++ " is missing from the fact store"
  else "schema load: table " ++ Text.quoted table ++ " has no column " ++ Text.quoted column)
    ++ (match cause with
      | some text => ": " ++ text
      | none => "")

/-- The text shown to the user. -/
def message : Failure → String
  | .malformed table column reason => malformedText table column reason
  | .missing table column cause => missingText table column cause
  | .canceled => "context canceled"
  | .because text => text
  | .during activity cause => activity ++ ": " ++ cause.message

/-- The cause inside all activities. -/
def root : Failure → Failure
  | .during _ cause => cause.root
  | cause => cause

/-- Whether the root cause is a cancellation. -/
def isCanceled (f : Failure) : Bool :=
  f.root == .canceled

end Failure

/-- Names the activity during which something may fail. -/
def during {α : Type} (activity : String) : Except Failure α → Except Failure α
  | .ok a => .ok a
  | .error f => .error (.during activity f)

/-- Fails for a reason given in words. -/
def failBecause {α : Type} (text : String) : Except Failure α :=
  .error (.because text)

end TaintFlow
