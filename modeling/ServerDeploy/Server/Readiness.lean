import ServerDeploy.Session.Client
import ServerDeploy.World.Retry

/-! Whether a server is ready, and reloading one until it is again. -/

namespace ServerDeploy

namespace Client

def isTransitional (state : String) : Bool :=
  let state := state.map Char.toLower
  state == "starting" || state == "stopping"

variable {σ : Type} [Endpoint σ]

/-- Runs a computation; an error that is reported to the operator counts as a plain no. -/
def orNo (body : Run σ Bool) : Run σ Bool :=
  tryCatch body fun fault =>
    match fault with
    | .deploy _ => pure false
    | fault => throw fault

/-- Whether the state of the server can be read and is neither starting nor stopping. -/
def isServerReady (client : Nat) : Run σ Bool :=
  orNo do
    let r ← execute client (.obj (Operation.readAttribute "server-state" .empty))
    pure (r.isSuccessful && !isTransitional r.resultText)

/-- How long to wait between two looks at a reloading server. -/
def reloadInterval : Seconds := .real (.ofDecimal false 1 (-1))

/-- Reloads the server and waits until it is ready again. -/
def reload (client : Nat) (timeout interval : Seconds) : Run σ Unit := do
  let _ ← executeRequired client (.obj (Operation.make "reload" .empty []))
  if !(← Run.waitUntil (isServerReady client) timeout interval) then
    Run.fail (.serverStart (.notReloaded timeout))

def shutdown (client : Nat) : Run σ Outcome :=
  execute client (.obj (Operation.make "shutdown" .empty []))

end Client

end ServerDeploy
