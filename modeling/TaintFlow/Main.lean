import TaintFlow.Command.Program

/-!
# The analyser as a program

Runs the command line on the files, the environment and the clock of the system.
-/

namespace TaintFlow

/-- The trouble behind an error of the system. -/
def Disk.Trouble.ofError : IO.Error → Disk.Trouble
  | .noFileOrDirectory .. => .absent
  | .inappropriateType _ _ details =>
    if details == Disk.Trouble.isDirectory.text then .isDirectory else .notDirectory
  | e => .other (toString e)

/-- The result of using a file, with the trouble behind an error. -/
def Disk.attempt {α : Type} (use : IO α) : IO (Except Disk.Trouble α) := do
  try return .ok (← use)
  catch e => return .error (.ofError e)

/-- The files of the system. -/
def systemDisk : Disk IO where
  read path := Disk.attempt (IO.FS.readFile path)
  write path text := Disk.attempt (IO.FS.writeFile path text)
  isDirectory path := do
    match ← Disk.attempt (IO.FS.withFile path .read (·.read 1)) with
    | .ok _ => return .ok false
    | .error .isDirectory => return .ok true
    | .error t => return .error t

/-- The variables of the environment that the settings know. -/
def systemEnv : IO (List (String × String)) := do
  let found ← Settings.variableNames.mapM fun name => do
    return (name, ← IO.getEnv name)
  return found.filterMap fun (name, value) => value.map (name, ·)

/-- Sixteen random bytes with the marks of a random identifier. -/
def randomId : IO String := do
  let bytes ← (List.range 16).mapM fun _ => return UInt8.ofNat (← IO.rand 0 255)
  return Report.groups (Report.stamped 4 bytes)

/-- The system as the host of a program. -/
def systemHost : IO (Command.Host IO) := do
  return { disk := systemDisk, home := (← IO.getEnv "HOME").getD "", env := ← systemEnv,
           runId := randomId, clock := IO.monoNanosNow }

end TaintFlow

open TaintFlow in
/-- Runs the command line of the analyser. -/
def main (args : List String) : IO UInt32 := do
  let outcome ← Command.runAnalyzer (← systemHost) args
  IO.print outcome.output
  IO.eprint outcome.complaint
  return UInt32.ofNat outcome.exitCode
