import TaintFlow.Disk
import TaintFlow.Report.Plain
import TaintFlow.Report.Sarif

/-!
# Writing reports

A report is written as JSON, as a SARIF log or as plain text, to standard output or to a file.
JSON and plain text are written report by report; a SARIF log holds all reports and is written
when the output is closed.

## Main definitions

* `Report.Format` — the formats.
* `Report.Format.render` — what a list of reports looks like in a format.
* `Report.Format.deliver` — writes reports to a medium that may fail.
* `Report.writeTo` — writes reports to standard output or to a file.
-/

namespace TaintFlow.Report

/-- The formats of reports. -/
inductive Format where
  | json
  | sarif
  | text
  deriving DecidableEq, Repr, Inhabited

/-- The format with a given name. -/
def Format.ofName? : String → Option Format
  | "json" => some .json
  | "sarif" => some .sarif
  | "text" => some .text
  | _ => none

/-- The format with a given name, or the failure that names it. -/
def Format.ofName (name : String) : Except Failure Format :=
  match Format.ofName? name with
  | some f => .ok f
  | none => failBecause ("unsupported output format: " ++ name)

/-- What a list of reports looks like in a format. -/
def Format.render (f : Format) (version : String) (reports : List Report) : String :=
  match f with
  | .json => String.join (reports.map fun r => r.toJson.indented .plain 0 ++ "\n")
  | .sarif => Sarif.text version reports
  | .text => String.join (reports.map Report.plain)

/-- Why a medium fails to take text and why it fails to close, if it does. -/
structure Medium where
  writeFault : Option String := none
  closeFault : Option String := none

/-- How writing and closing ended. -/
structure Delivery where
  write : Option Failure
  close : Option Failure

/-- Writes reports to a medium and closes it. -/
def Format.deliver (f : Format) (medium : Medium) (reports : List Report) : Delivery :=
  let closing := medium.closeFault.map fun t => Failure.during "failed to close output writer" (.because t)
  match f with
  | .sarif =>
    { write := none,
      close := match medium.writeFault with
        | some t => some (.during "failed to encode SARIF output" (.because t))
        | none => closing }
  | _ =>
    { write := if reports.isEmpty then none
        else medium.writeFault.map fun t => .during "failed to write report" (.because t),
      close := closing }

/-- Whether a path stands for standard output. -/
def isStandardOutput (path : String) : Bool :=
  path.isEmpty || path == "-" || path == "stdout"

/-- Writes reports to standard output or to a file, and gives what goes to standard output. -/
def writeTo {m : Type → Type} [Monad m] (disk : Disk m) (home version format path : String)
    (reports : List Report) : m (Except Failure String) := do
  match Format.ofName format with
  | .error f => return .error f
  | .ok f =>
    let text := f.render version reports
    if isStandardOutput path then return .ok text
    match Disk.expandHome home path with
    | .error e => return .error (.during ("failed to expand output path " ++ path) e)
    | .ok file =>
      match ← disk.write file text with
      | .ok () => return .ok ""
      | .error t => return .error (.during ("failed to create output file " ++ file) (t.opening file))

end TaintFlow.Report
