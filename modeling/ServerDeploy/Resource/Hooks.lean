import ServerDeploy.Command.Reader
import ServerDeploy.Model.Composite
import ServerDeploy.Resource.Descriptor
import ServerDeploy.Session.Client

/-! Running the commands of a hook. All of them are read before the first is sent. -/

namespace ServerDeploy

namespace Hook

/-- The operations of all commands, or the first that cannot be read. -/
def operations : List String → Except Fault (List Operation)
  | [] => .ok []
  | command :: rest => do
    let op ← Command.read command
    let ops ← operations rest
    pure (op :: ops)

variable {σ : Type} [Endpoint σ]

def executeEach (client : Nat) : List Operation → Run σ Unit
  | [] => pure ()
  | op :: rest => do
    let _ ← Client.executeRequired client (.obj op)
    executeEach client rest

def executeBatch (client : Nat) (ops : List Operation) : Run σ Unit := do
  let c ← Run.ofExcept (Composite.empty.addSteps (ops.map .obj))
  let _ ← Client.executeRequired client (.obj c.build)

/-- Runs a hook, if there is one, and gives the number of its commands. -/
def run (client : Nat) (hook : Option Hook) : Run σ Nat :=
  match hook with
  | none => pure 0
  | some h =>
    if h.commands.isEmpty then pure 0
    else do
      let ops ← Run.ofExcept (operations h.commands)
      if h.batch then executeBatch client ops else executeEach client ops
      pure ops.length

end Hook

end ServerDeploy
