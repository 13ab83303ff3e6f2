import ServerDeploy.Json.Reader
import ServerDeploy.Model.Operation
import ServerDeploy.Model.Outcome
import ServerDeploy.Settings.Credentials
import ServerDeploy.World.Url

/-! Clients of a management endpoint. Operations are posted as JSON; credentials are asked for only
after the endpoint has refused a request, and are sent only after it has sent a challenge. -/

namespace ServerDeploy

/-- A number that JSON text on the wire cannot carry stands somewhere in the value. -/
def Json.hasNonFinite : Json → Bool
  | .num x => !x.isFinite
  | .arr items => nonFiniteItem items
  | .obj members => nonFiniteMember members
  | _ => false
where
  nonFiniteItem : List Json → Bool
    | [] => false
    | v :: rest => v.hasNonFinite || nonFiniteItem rest
  nonFiniteMember : List (String × Json) → Bool
    | [] => false
    | (_, v) :: rest => v.hasNonFinite || nonFiniteMember rest

structure Response where
  status : Nat
  body : Body
  deriving Repr, Inhabited

namespace Client

def endpoint (c : Client) : String := c.host ++ ":" ++ toString c.port

def launchType (c : Client) : String := if c.isDomain then "DOMAIN" else "STANDALONE"

def text (c : Client) : String :=
  (if c.isDomain then "DomainClient" else "ManagementClient") ++ "(" ++ c.endpoint ++ ")"

end Client

namespace Run

variable {σ : Type}

/-- The client with a number. Numbers are only given out for clients that were made. -/
def client (id : Nat) : Run σ Client := do
  pure ((← get).clients[id]?.getD default)

def session (id : Nat) : Run σ Session := do
  pure ((← get).sessions[id]?.getD default)

def setClient (id : Nat) (c : Client) : Run σ Unit :=
  modify fun w => { w with clients := w.clients.set id c }

def setSession (id : Nat) (s : Session) : Run σ Unit :=
  modify fun w => { w with sessions := w.sessions.set id s }

/-- Adds a client and gives its number. -/
def addClient (c : Client) : Run σ Nat :=
  modifyGet fun w => (w.clients.length, { w with clients := w.clients ++ [c] })

/-- Makes a client with a session of its own. -/
def newClient (host : String) (port : Int) (scheme : String) (source : CredentialSource) :
    Run σ Nat := do
  let id ← modifyGet fun w =>
    (w.sessions.length, { w with sessions := w.sessions ++ [⟨true, source, none, false⟩] })
  addClient ⟨id, host, port, scheme ++ "://" ++ host ++ ":" ++ toString port ++ "/management",
    false, false⟩

/-- Closes a client and its session. Closing again changes nothing. -/
def closeClient (id : Nat) : Run σ Unit := do
  let c ← client id
  if !c.isClosed then
    let s ← session c.session
    setSession c.session { s with isOpen := false }
    setClient id { c with isClosed := true }

/-- A domain client that shares the session of another client. -/
def upgradeClient (id : Nat) : Run σ Nat := do
  let c ← client id
  addClient { c with isDomain := true, isClosed := false }

end Run

namespace Session

variable {σ : Type} [Endpoint σ]

/-- One exchange of a session with the endpoint: the request is recorded and answered. -/
def exchange (id : Nat) (request : Request) : Run σ Reply := do
  let reply ← modifyGet fun w =>
    let (reply, endpoint) := Endpoint.answer w.endpoint request
    (reply, { w with
      endpoint := endpoint
      requests := w.requests ++ [request]
      journal := w.journal ++ [.exchanged id request reply] })
  match reply with
  | .lost reason => throw (.transport reason)
  | .interrupted => throw .interrupted
  | reply => pure reply

def toResponse : Reply → Response
  | .answer status body => ⟨status, body⟩
  | .challenge => ⟨401, .text ""⟩
  | .lost _ | .interrupted => ⟨0, .text ""⟩

def isText (d : Document) : Bool :=
  match d with
  | .scalar (.text _) | .scalar (.bytes _) => true
  | _ => false

/-- An exchange that carries credentials; they must be texts. -/
def exchangeAs (id : Nat) (c : Credentials) (url : String) (call : Call) : Run σ Reply :=
  if isText c.user && isText c.password then exchange id ⟨url, call, some c.user⟩
  else throw .shape

/-- A challenge is kept in mind and answered with credentials; any other reply stands. -/
def answerChallenge (id : Nat) (c : Credentials) (url : String) (call : Call) : Reply → Run σ Reply
  | .challenge => do
    let s ← Run.session id
    Run.setSession id { s with challenged := true }
    exchangeAs id c url call
  | reply => pure reply

/-- A request with digest credentials. Without a known challenge it starts bare, and a challenge is
answered once. -/
def exchangeDigest (id : Nat) (c : Credentials) (url : String) (call : Call) : Run σ Reply := do
  let s ← Run.session id
  let reply ← if s.challenged then exchangeAs id c url call else exchange id ⟨url, call, none⟩
  answerChallenge id c url call reply

def isRefusal : Reply → Bool
  | .challenge => true
  | .answer status _ => status == 401
  | .lost _ | .interrupted => false

/-- Calls a source for credentials, which the session keeps. -/
def callSource (id : Nat) (source : CredentialSource) : Run σ (Option Credentials) := do
  Run.note (.asked id)
  match ← Credentials.resolve source with
  | none => pure none
  | some c => do
    let s ← Run.session id
    Run.setSession id { s with digest := some c }
    Run.note (.found id)
    pure (some c)

/-- Credentials from the source of a session. There are none without a source. -/
def signIn (id : Nat) : Run σ (Option Credentials) := do
  let s ← Run.session id
  match s.source with
  | .nowhere => pure none
  | source => callSource id source

/-- A request in a session. The source of credentials is asked when a bare request is refused. -/
def send (id : Nat) (url : String) (call : Call) : Run σ Response := do
  let s ← Run.session id
  let url := (Url.ofText url).normal.text
  if !s.isOpen then throw .closedSession
  match s.digest with
  | some c => toResponse <$> exchangeDigest id c url call
  | none => do
    let reply ← exchange id ⟨url, call, none⟩
    if isRefusal reply then
      match ← signIn id with
      | none => pure (toResponse reply)
      | some c => toResponse <$> exchangeDigest id c url call
    else pure (toResponse reply)

end Session

namespace Client

variable {σ : Type} [Endpoint σ]

def resultOf (c : Client) (r : Response) : Except Fault Outcome :=
  let refuse (text : String) : Except Fault Outcome :=
    .error (.deploy (.operationFailed text .null))
  let unexpected (shown : String) : Except Fault Outcome :=
    refuse ("Unexpected response from " ++ c.endpoint ++ " (HTTP " ++ toString r.status ++ "): " ++
      shown)
  let read (v : Json) : Except Fault Outcome :=
    match v with
    | .obj members =>
      if (Members.get? Outcome.outcomeKey members).isSome then .ok members else unexpected v.text
    | v => unexpected v.text
  if r.status == 401 then refuse ("Authentication failed for " ++ c.endpoint)
  else match r.body with
    | .json v => read v
    | .text s =>
      match Json.parse? s with
      | some v => read v
      | none => unexpected (String.ofList (s.toList.take 200))

def operationName (op : Operation) : String :=
  ((op.get? Operation.nameKey).getD .null).text

/-- Executes an operation and gives the result, whether it is a success or not. -/
def execute (id : Nat) (op : Json) : Run σ Outcome := do
  let c ← Run.client id
  if c.isClosed then Run.fail (.connection (.closed c.endpoint))
  match op with
  | .obj members =>
    if op.hasNonFinite then
      throw (.value "Out of range float values are not JSON compliant")
    let response ← tryCatch (Session.send c.session c.baseUrl (.operation op)) fun fault =>
      match fault with
      | .transport reason =>
        Run.fail (.connection (.unreachable (operationName members) c.endpoint reason))
      | fault => throw fault
    Run.ofExcept (c.resultOf response)
  | _ => throw .shape

/-- Executes an operation that must succeed. -/
def executeRequired (id : Nat) (op : Json) : Run σ Outcome := do
  let r ← execute id op
  Run.ofExcept r.require

def contentHash (r : Outcome) : Except Fault Json :=
  match r.get? "result" with
  | some (.obj members) =>
    match Members.get? "BYTES_VALUE" members with
    | some hash => .ok hash
    | none => .error .shape
  | _ => .error .shape

/-- Uploads the content of a file and gives its hash. -/
def upload (id : Nat) (path : Path) : Run σ Json := do
  let c ← Run.client id
  let content ← Run.readContent path
  let call := Call.upload path.name content
  let response ← tryCatch (Session.send c.session (c.baseUrl ++ "/add-content") call) fun fault =>
    match fault with
    | .transport reason =>
      Run.fail (.connection (.notUploaded path.name c.endpoint reason))
    | fault => throw fault
  let r ← Run.ofExcept (c.resultOf response)
  let r ← Run.ofExcept r.require
  Run.ofExcept (contentHash r)

/-- The names in a list result. Mappings give their keys and texts their characters. -/
def namesOf : Json → Except Fault (List Json)
  | v =>
    if !v.isSomething then .ok []
    else match v with
      | .arr items => .ok items
      | .obj members => .ok (members.map fun (k, _) => .str k)
      | .str s => .ok (s.toList.map fun c => .str (String.singleton c))
      | _ => .error .shape

/-- The profiles of a domain. A client of a standalone server cannot ask for them. -/
def profileNames (id : Nat) : Run σ (List Json) := do
  let c ← Run.client id
  if !c.isDomain then throw .shape
  let r ← executeRequired id (.obj (Operation.readChildrenNames "profile" .empty))
  Run.ofExcept (namesOf r.result)

end Client

end ServerDeploy
