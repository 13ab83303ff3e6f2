import ServerDeploy.Goal.Selection
import ServerDeploy.Json.Writer
import ServerDeploy.Log.Setup

/-! A run of the program: arguments in, an exit code out. Failures of the goal are noted for the
operator; other faults end the run. -/

namespace ServerDeploy

namespace CommandLine

/-- A batch of a dry run as it is printed. -/
def batchJson (b : Batch) : Json :=
  .obj [("address", .str b.address),
    ("profile", (b.profile.map Json.str).getD .null),
    ("status", .str b.status.name), ("steps", .arr b.steps)]

variable {σ : Type}

def notice (line : String) : Run σ Unit :=
  modify fun w =>
    { w with terminal := { w.terminal with notices := w.terminal.notices ++ [line] } }

def printLine (line : String) : Run σ Unit :=
  modify fun w => { w with terminal := w.terminal.print line }

def printBatches : List Batch → Run σ Unit
  | [] => pure ()
  | b :: rest => do
    printLine ((batchJson b).writeLines 0)
    printBatches rest

def printResult : GoalResult → Run σ Unit
  | .added report => if report.dryRun then printBatches report.batches else pure ()
  | _ => pure ()

variable [Endpoint σ]

/-- Runs the goal that arguments select, and gives the exit code. -/
def runGoal (a : Arguments) : Run σ Nat := do
  let work : Run σ GoalResult := do
    let goal ← Goal.select a
    goal.run
  match ← Run.outcome work with
  | .ok result => do
    printResult result
    pure 0
  | .error .interrupted => do
    notice ("Goal " ++ a.goal.text ++ " interrupted by user")
    pure 130
  | .error (.deploy e) => do
    notice ("Could not execute goal " ++ a.goal.text ++ ". Reason: " ++ e.message)
    pure 1
  | .error fault => throw fault

/-- Reads the arguments, sets logging up and runs the goal. -/
def run (arguments : List String) : Run σ Nat := do
  let a ← Run.ofExcept (read arguments)
  let level := if a.given.has "--verbose" then some Log.debugLevel else none
  let _ ← Log.setUp level !(a.given.has "--no-log-file")
  runGoal a

end CommandLine

end ServerDeploy
