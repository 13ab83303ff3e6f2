import ServerDeploy.Fault
import ServerDeploy.World.Endpoint

/-! The world a deployment runs in: the endpoint, the network, the files, the terminal, the server
process and the clock, each with a record of what was done to it. Computations are state
transformers; what was done before a fault stays done. -/

namespace ServerDeploy

/-- User and password. Values from a settings file may be of any kind. -/
structure Credentials where
  user : Document
  password : Document
  deriving Repr, Inhabited

inductive CredentialSource where
  | nowhere
  | given (credentials : Credentials)
  | lookup (user password serverId settingsFile : Option String)
  deriving Repr, Inhabited

/-- An HTTP session with what it knows about authentication. -/
structure Session where
  isOpen : Bool
  source : CredentialSource
  digest : Option Credentials
  challenged : Bool
  deriving Repr, Inhabited

/-- A client for one endpoint. An upgraded client shares the session of the one it came from. -/
structure Client where
  session : Nat
  host : String
  port : Int
  baseUrl : String
  isDomain : Bool
  isClosed : Bool
  deriving Repr, Inhabited

inductive ConnectionState where
  | unresolved
  | resolvingHost
  | connected
  | closed
  deriving DecidableEq, Repr, Inhabited

/-- A lazily connected handle on one endpoint, which holds at most one client. -/
structure Connection where
  hostname : String
  port : Int
  source : CredentialSource
  address : Option String
  client : Option Nat
  state : ConnectionState
  deriving Repr, Inhabited

/-- The result of a host name lookup. -/
inductive Lookup where
  | found (address : String)
  | unknown
  /-- The lookup was broken off. -/
  | lost (fault : Fault)
  deriving Repr, Inhabited

/-- Where credentials that were not given may come from. -/
inductive Informant where
  | settingsFile
  | operator
  deriving DecidableEq, Repr, Inhabited

/-- What is done on the way to an endpoint, in the order in which it is done. -/
inductive ConnectionEvent where
  | lookedUp (answer : Lookup)
  | exchanged (session : Nat) (request : Request) (reply : Reply)
  /-- The source of a session was called for credentials. -/
  | asked (session : Nat)
  | consulted (informant : Informant)
  /-- The source of a session gave it credentials. -/
  | found (session : Nat)
  deriving Repr

inductive Download where
  | served (status : Nat) (location : Option String) (content : Content)
  /-- No answer came. -/
  | lost (fault : Fault)
  /-- The body broke off after some of it. -/
  | broken (received : String) (fault : Fault)
  deriving Repr, Inhabited

/-- What the process says when asked whether it still runs. -/
inductive Poll where
  | running
  | exited (code : Int)
  | interrupted
  deriving DecidableEq, Repr, Inhabited

inductive Wait where
  | exited (code : Int)
  | timedOut
  deriving DecidableEq, Repr, Inhabited

inductive ProcessEvent where
  | launch (command : List String) (directory : String)
  | poll (answer : Poll)
  | wait (timeout : Option Seconds) (answer : Wait)
  | terminate
  | kill
  deriving DecidableEq, Repr, Inhabited

/-- The server process and how it will behave: the last of the answers repeats, and a process of
which nothing is said runs until it is waited for. -/
structure ServerProcess where
  polls : List Poll
  waits : List Wait
  /-- Why the process cannot be launched, if it cannot. -/
  launchRefusal : Option String
  isLaunched : Bool
  events : List ProcessEvent
  deriving Repr, Inhabited

structure Terminal where
  /-- What the operator types, or the fault that breaks a prompt off. -/
  answers : List (Except Fault String)
  /-- How many checks of a running server the operator sits through before an interrupt. -/
  patience : Nat
  prompts : List String
  output : List String
  notices : List String
  deriving Repr, Inhabited

/-- The world around a deployment; `σ` is the state of the endpoint. -/
structure World (σ : Type) where
  endpoint : σ
  requests : List Request
  sessions : List Session
  clients : List Client
  connection : Connection
  remembered : Option Credentials
  asked : Nat
  lookups : List Lookup
  lookupCount : Nat
  journal : List ConnectionEvent
  downloads : List Download
  urls : List String
  files : Files
  directory : Path
  home : Path
  environment : List (String × String)
  now : Nat
  sleeps : List Nat
  process : ServerProcess
  terminal : Terminal

abbrev Run (σ : Type) (α : Type) := ExceptT Fault (StateM (World σ)) α

namespace World

variable {σ : Type}

/-- A quiet world: nothing done yet, no files, no process answers, and a local host. -/
def quiet (endpoint : σ) (directory home : Path) : World σ where
  endpoint := endpoint
  requests := []
  sessions := []
  clients := []
  connection := ⟨"localhost", 9990, .nowhere, none, none, .unresolved⟩
  remembered := none
  asked := 0
  lookups := []
  lookupCount := 0
  journal := []
  downloads := []
  urls := []
  files := ⟨[]⟩
  directory := directory
  home := home
  environment := []
  now := 0
  sleeps := []
  process := ⟨[], [], none, false, []⟩
  terminal := ⟨[], 0, [], [], []⟩

def setting? (w : World σ) (name : String) : Option String :=
  (w.environment.find? fun (k, _) => k == name).map (·.2)

/-- Waits, which moves the clock. -/
def sleep (w : World σ) (milliseconds : Nat) : World σ :=
  { w with now := w.now + milliseconds, sleeps := w.sleeps ++ [milliseconds] }

end World

namespace Run

variable {σ : Type}

def fail {α : Type} (e : DeployError) : Run σ α := throw (.deploy e)

def ofExcept {α : Type} (r : Except Fault α) : Run σ α :=
  match r with
  | .ok v => pure v
  | .error e => throw e

def sleep (milliseconds : Nat) : Run σ Unit := modify fun w => w.sleep milliseconds

def note (e : ConnectionEvent) : Run σ Unit :=
  modify fun w => { w with journal := w.journal ++ [e] }

/-- Runs a computation and then another, whether or not the first ended in a fault. -/
def andFinally {α : Type} (body : Run σ α) (after : Run σ Unit) : Run σ α :=
  fun w =>
    match body w with
    | (.ok v, w) =>
      match after w with
      | (.ok (), w) => (.ok v, w)
      | (.error e, w) => (.error e, w)
    | (.error e, w) =>
      match after w with
      | (.ok (), w) => (.error e, w)
      | (.error e, w) => (.error e, w)

def outcome {α : Type} (body : Run σ α) : Run σ (Except Fault α) :=
  fun w => let (r, w) := body w; (.ok r, w)

end Run

end ServerDeploy
