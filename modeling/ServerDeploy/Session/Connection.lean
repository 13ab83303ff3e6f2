import ServerDeploy.Resource.Existence
import ServerDeploy.World.Retry

/-! The connection to a server. A client is made on first use, found out to be of a standalone server
or of a domain, and kept until the connection is closed. -/

namespace ServerDeploy

namespace ConnectionState

def name : ConnectionState → String
  | .unresolved => "unresolved"
  | .resolvingHost => "resolving_host"
  | .connected => "connected"
  | .closed => "closed"

end ConnectionState

namespace Connection

variable {σ : Type}

def text (c : Connection) : String :=
  "ServerConnection(" ++ c.hostname ++ ":" ++ toString c.port ++ ", state=" ++ c.state.name ++ ")"

def update (f : Connection → Connection) : Run σ Unit :=
  modify fun w => { w with connection := f w.connection }

/-- Looks a name up. The last answer repeats, and without any the host is local. -/
def lookUp : Run σ Lookup :=
  modifyGet fun w =>
    let (answer, rest) : Lookup × List Lookup := match w.lookups with
      | [] => (.found "127.0.0.1", [])
      | [last] => (last, [last])
      | first :: rest => (first, rest)
    (answer, { w with
      lookups := rest
      lookupCount := w.lookupCount + 1
      journal := w.journal ++ [.lookedUp answer] })

/-- The address of the host, which is looked up until it was found once. -/
def hostAddress : Run σ String := do
  let c := (← get).connection
  match c.address with
  | some address => pure address
  | none =>
    update fun c => { c with state := .resolvingHost }
    let answer ← lookUp
    update fun d => { d with state := c.state }
    match answer with
    | .found address => do
      update fun c => { c with address := some address }
      pure address
    | .unknown => Run.fail (.invalidHost c.hostname)
    | .lost fault => throw fault

variable [Endpoint σ]

def readLaunchType (client : Nat) : Run σ String :=
  Run.withRetry .launchType do
    let r ← Client.executeRequired client (.obj (Operation.readAttribute "launch-type" .empty))
    pure r.resultText

/-- The client, made and classified if there is none yet. A client that cannot be classified is
closed again. -/
def getClient : Run σ Nat := do
  match (← get).connection.client with
  | some id => pure id
  | none => do
    let host ← hostAddress
    let c := (← get).connection
    let id ← Run.newClient host c.port "http" c.source
    let launchType ← tryCatch (readLaunchType id) fun fault => do
      Run.closeClient id
      throw fault
    let id ← if launchType == "DOMAIN" then Run.upgradeClient id else pure id
    update fun c => { c with client := some id, state := .connected }
    pure id

def isDomainServer : Run σ Bool := do
  let id ← getClient
  pure (← Run.client id).isDomain

omit [Endpoint σ] in
/-- Closes the client, if there is one, and forgets it. -/
def close : Run σ Unit := do
  match (← get).connection.client with
  | some id => do
    Run.closeClient id
    update fun c => { c with client := none, state := .closed }
  | none => pure ()

def isGiven (s : Option String) : Bool := s.any fun s => !s.isEmpty

def resourceExists (client : Nat) (address : String) : Run σ Bool := do
  match Address.parse none address with
  | .error part => Run.fail (.addressSegment part)
  | .ok address => do
    let e ← Existence.check client address
    pure e.found

/-- Whether a goal should run, given a resource that must exist or one that must not. Conditions are
not checked on domain controllers. -/
def checkPreconditions (ifExists ifNotExists : Option String) : Run σ Bool := do
  if isGiven ifExists && isGiven ifNotExists then throw (.configuration .bothConditions)
  if !isGiven ifExists && !isGiven ifNotExists then pure true
  else do
    let id ← getClient
    if (← Run.client id).isDomain then pure true
    else if isGiven ifExists then resourceExists id (ifExists.getD "")
    else do
      let found ← resourceExists id (ifNotExists.getD "")
      pure (!found)

end Connection

end ServerDeploy
