import ServerDeploy.Server.Config
import ServerDeploy.Server.Readiness
import ServerDeploy.Session.Connection

/-! A local server: its process and the connection to it. A process that was launched is waited for
when the server is stopped, and made to end if it does not by itself. -/

namespace ServerDeploy

namespace ServerProcess

/-- The next answer of a list whose last one repeats. -/
def next {α : Type} (fallback : α) : List α → α × List α
  | [] => (fallback, [])
  | [last] => (last, [last])
  | first :: rest => (first, rest)

def note (p : ServerProcess) (e : ProcessEvent) : ServerProcess :=
  { p with events := p.events ++ [e] }

/-- Launches the process, or says why it cannot be. -/
def launch (p : ServerProcess) (command : List String) (directory : String) :
    Option String × ServerProcess :=
  let p := p.note (.launch command directory)
  match p.launchRefusal with
  | some reason => (some reason, p)
  | none => (none, { p with isLaunched := true })

/-- Asks whether the process still runs. -/
def poll (p : ServerProcess) : Poll × ServerProcess :=
  let (answer, rest) := next .running p.polls
  (answer, { p with polls := rest }.note (.poll answer))

def wait (p : ServerProcess) (timeout : Option Seconds) : Wait × ServerProcess :=
  let (answer, rest) := next (.exited 0) p.waits
  let answer := match timeout, answer with
    | none, .timedOut => .exited 0
    | _, answer => answer
  (answer, { p with waits := rest }.note (.wait timeout answer))

end ServerProcess

namespace Server

variable {σ : Type}

/-- Changes the process and gives what that yields. -/
def withProcess {α : Type} (f : ServerProcess → α × ServerProcess) : Run σ α :=
  modifyGet fun w =>
    let (v, p) := f w.process
    (v, { w with process := p })

def isLaunched : Run σ Bool := do
  pure (← get).process.isLaunched

def exitCode? : Run σ (Option Int) := do
  if ← isLaunched then
    match ← withProcess ServerProcess.poll with
    | .running => pure none
    | .exited code => pure (some code)
    | .interrupted => throw .interrupted
  else pure none

/-- Whether the process is still there: it was launched and has not ended. -/
def isAlive : Run σ Bool := do
  if ← isLaunched then
    let code ← exitCode?
    pure code.isNone
  else pure false

/-- Launches the server, which then boots on its own. -/
def start (c : ServerConfig) : Run σ Unit := do
  if ← isAlive then Run.fail (.serverStart .alreadyRunning)
  let command ← c.launchCommand
  match ← withProcess fun p => p.launch command c.home.text with
  | some reason => Run.fail (.serverStart (.notLaunched (command.headD "") reason))
  | none => pure ()

/-- Waits for the process to end by itself, then terminates it, then kills it. -/
def awaitExit (timeout : Seconds) : Run σ Unit := do
  let wait (timeout : Option Seconds) : Run σ Wait := withProcess fun p => p.wait timeout
  let signal (e : ProcessEvent) : Run σ Unit := withProcess fun p => ((), p.note e)
  match ← wait (some timeout) with
  | .exited _ => pure ()
  | .timedOut => do
    signal .terminate
    match ← wait (some timeout) with
    | .exited _ => pure ()
    | .timedOut => do
      signal .kill
      let _ ← wait none

variable [Endpoint σ]

/-- Whether the server runs, as far as the connection can tell. A connection that could not be made
is dropped, so that the next look makes a new one. -/
def isRunning : Run σ Bool := do
  if (← exitCode?).isSome then pure false
  else do
    let client ← tryCatch (some <$> Connection.getClient) fun fault =>
      match fault with
      | .deploy _ => do
        Connection.close
        pure none
      | fault => throw fault
    match client with
    | some client => Client.isServerReady client
    | none => pure false

/-- How long a process may take to end. -/
def defaultStopTimeout : Seconds := .real (.ofInt 5)

/-- Asks a running server to shut down. Errors in this do not matter. -/
def requestShutdown : Run σ Unit :=
  tryCatch (do
    if ← isRunning then
      let client ← Connection.getClient
      let _ ← Client.shutdown client)
    fun fault =>
      match fault with
      | .deploy _ => pure ()
      | fault => throw fault

/-- Stops the server: a request, the end of the connection, and the end of the process if one was
launched. -/
def stop (timeout : Seconds) : Run σ Unit := do
  Run.andFinally requestShutdown Connection.close
  if ← isLaunched then awaitExit timeout

/-- How long to wait between two looks at a starting server. -/
def startInterval : Seconds := .real (.ofDecimal false 5 (-1))

/-- Waits until the server runs. One that does not is stopped, and the error tells whether its
process had ended. -/
def waitForStart (timeout interval : Seconds) : Run σ Unit := do
  if !(← Run.waitUntil isRunning timeout interval) then
    let code ← exitCode?
    stop defaultStopTimeout
    match code with
    | some code => Run.fail (.serverStart (.exited code))
    | none => Run.fail (.serverStart (.notStarted timeout))

end Server

end ServerDeploy
