import TaintFlow.Command.Configure
import TaintFlow.Run.Prepare
import TaintFlow.Store.Open

/-!
# The command that analyses

Opens the fact store, runs the analysis and writes the report.  A run that is interrupted still
writes what it has found.
-/

namespace TaintFlow.Command

/-- The version of the program. -/
def programVersion : String := "1.0"

/-- The failure after a partial report has been written: the interrupt is named when there was
one. -/
def partialReport : StateM Budget Failure := do
  let text := "analysis did not complete; the report is partial"
  return if ← Budget.poll then .during text .canceled else .because text

/-- The address of the fact store: the argument, or else the setting. -/
def storeAddress (s : Settings) (line : Parsed) : Except Failure String :=
  let address := line.args.headD s.database
  if address.isEmpty then
    failBecause "no fact database given; pass one as an argument or set database.url"
  else if line.isOn "persist" && Store.Backend.ofAddress address != .postgres then
    failBecause "--persist requires a PostgreSQL fact database"
  else .ok address

/-- Writes a report and says how the command ends. -/
def deliver {m : Type → Type} [Monad m] (host : Host m) (s : Settings) (report : Report)
    (rest : Budget) : m Outcome := do
  match ← Report.writeTo host.disk host.home programVersion s.output.format s.output.path [report] with
  | .error f => return .failed (.during "failed to create reporter" f)
  | .ok output =>
    if report.incomplete then
      return { output, failure := some (partialReport rest).1, incomplete := true }
    else return .written output

/-- Runs a plan over a source and delivers the report. -/
def runPlan {m : Type → Type} [Monad m] (host : Host m) (s : Settings) (plan : Run.Plan)
    (src : Store.Source Budget) : m Outcome := do
  let started ← host.clock
  let limited := 0 < s.analysis.timeout
  let budget := if limited then host.interrupt.underDeadline else host.interrupt.budget
  let (result, rest) := plan.run (← host.runId) src budget
  match result with
  | .error f => return .failed f
  | .ok report =>
    let duration := (← host.clock) - started
    deliver host s { report with stats := { report.stats with duration } }
      (if limited then host.interrupt.budget else rest)

/-- Analyses a fact store and writes the report. -/
def analyze {m : Type → Type} [Monad m] (host : Host m) (s : Settings) (line : Parsed) :
    m Outcome := do
  match storeAddress s line with
  | .error f => return .failed f
  | .ok address =>
    match ← Store.openSource host.disk host.home address host.interrupt.budget with
    | .error f => return .failed (.during "failed to open fact database" f)
    | .ok src =>
      match ← Run.Plan.prepare host.disk host.home s with
      | .error f => return .failed f
      | .ok plan => runPlan host s plan src

end TaintFlow.Command
