import ServerDeploy.CommandLine.Program
import ServerDeploy.Json.Reader
import ServerDeploy.Rehearsal.Script
import ServerDeploy.Rehearsal.Transcript

/-! The command line: a rehearsal of a run. The script of the rehearsal comes from standard input; what
the run prints goes to standard output, what it notes and did to standard error. -/

namespace ServerDeploy

namespace Rehearsal

/-- The directory in which rehearsals take place. -/
def defaultRoot : Path := .ofText "/work"

/-- The exit code of a run that ended in a fault which is not reported to the operator. -/
def faultCode : Fault → Nat
  | .usage code => code
  | _ => 1

def rehearse (script : Json) (arguments : List String) : Nat × World Script :=
  match (CommandLine.run arguments : Run Script Nat) (worldOf defaultRoot script) with
  | (.ok code, w) => (code, w)
  | (.error fault, w) => (faultCode fault, w)

end Rehearsal

end ServerDeploy

open ServerDeploy in
def main (arguments : List String) : IO UInt32 := do
  let input ← (← IO.getStdin).readToEnd
  let script := (Json.parse? input).getD (.obj [])
  let (code, w) := Rehearsal.rehearse script arguments
  for line in w.terminal.output do
    IO.println line
  for line in w.terminal.notices do
    IO.eprintln line
  IO.eprintln (Json.obj w.transcript).write
  return UInt32.ofNat code
