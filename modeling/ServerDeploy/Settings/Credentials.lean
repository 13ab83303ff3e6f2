import ServerDeploy.World.FileAccess
import ServerDeploy.Yaml.Value

/-! Where credentials come from: what was given explicitly, then the entry of the server in the
settings file, then the operator at the terminal. The answer is remembered, so the operator is asked
at most once. -/

namespace ServerDeploy

/-- The server entries of a settings file, and the path they were read from. -/
structure CredentialStore where
  path : Option String
  servers : Entries
  deriving Repr

namespace CredentialStore

variable {σ : Type}

/-- The places where a settings file is looked for. -/
def searchPaths (w : World σ) : List Path :=
  [w.directory.child "jboss-deploy.yaml",
    (w.home.child ".config/jboss-deploy").child "settings.yaml",
    (w.home.child ".jboss-deploy").child "settings.yaml"]

def firstExisting : List Path → Run σ (Option Path)
  | [] => pure none
  | p :: rest => do
    if ← Run.pathExists p then pure (some p) else firstExisting rest

def serversOf (path : String) (d : Document) : Except Fault Entries :=
  let d := if d.isSomething then d else .map []
  match d with
  | .map entries =>
    match (Entries.get? (.text "servers") entries).getD (.map []) with
    | .map servers => .ok servers
    | _ => .error (.configuration (.serversNotMapping path))
  | _ => .error .shape

def load (path : String) : Run σ Entries := do
  let p := Path.ofText path
  if !(← Run.pathExists p) then throw (.configuration (.settingsFileMissing p.text))
  let text ← Run.readText p
  match Yaml.parse text with
  | .error .malformed => throw .invalidYaml
  | .error (.fault f) => throw f
  | .ok d => Run.ofExcept (serversOf p.text d)

/-- Opens the store at a path, or at the first place where there is a settings file. -/
def openAt (path : Option String) : Run σ CredentialStore := do
  let given := path.filter fun s => !s.isEmpty
  let path ← match given with
    | some s => pure (some s)
    | none => do
      let found ← firstExisting (searchPaths (← get))
      pure (found.map Path.text)
  match path with
  | none => pure ⟨none, []⟩
  | some s => do
    let servers ← load s
    pure ⟨some s, servers⟩

/-- User and password of a server, each perhaps missing; nothing for an unknown server. -/
def get? (store : CredentialStore) (serverId : String) :
    Except Fault (Option (Document × Document)) :=
  match (Entries.get? (.text serverId) store.servers).getD .null with
  | .scalar .null => .ok none
  | .map entry =>
    .ok (some ((Entries.get? (.text "username") entry).getD .null,
      (Entries.get? (.text "password") entry).getD .null))
  | _ => .error .shape

end CredentialStore

namespace Terminal

/-- Shows a prompt and takes the next answer. -/
def ask (t : Terminal) (prompt : String) : Except Fault String × Terminal :=
  (t.answers.headD (.ok ""), { t with
    answers := t.answers.drop 1, prompts := t.prompts ++ [prompt] })

def print (t : Terminal) (line : String) : Terminal :=
  { t with output := t.output ++ [line] }

end Terminal

namespace Credentials

variable {σ : Type}

def isMissing (d : Document) : Bool :=
  match d with
  | .scalar .null => true
  | _ => false

def orElse (d other : Document) : Document := if isMissing d then other else d

def askFor (prompt : String) : Run σ Document := do
  let answer ← modifyGet fun w =>
    let (answer, t) := w.terminal.ask prompt
    (answer, { w with terminal := t })
  Run.ofExcept (answer.map .text)

/-- Asks the operator for user and password. -/
def askOperator : Run σ Credentials := do
  Run.note (.consulted .operator)
  modify fun w => { w with
    terminal := w.terminal.print "Authenticating against security realm: ManagementRealm" }
  let user ← askFor "Username: "
  let password ← askFor "Password: "
  pure ⟨user, password⟩

def fillFromStore (c : Credentials) (serverId settingsFile : Option String) : Run σ Credentials := do
  match serverId with
  | none => pure c
  | some server =>
    if server.isEmpty || !(isMissing c.user || isMissing c.password) then pure c
    else do
      Run.note (.consulted .settingsFile)
      let store ← CredentialStore.openAt settingsFile
      match ← Run.ofExcept (store.get? server) with
      | none => pure c
      | some (user, password) => pure ⟨orElse c.user user, orElse c.password password⟩

def fillFromOperator (c : Credentials) : Run σ Credentials :=
  if isMissing c.user || isMissing c.password then do
    let asked ← askOperator
    pure ⟨orElse c.user asked.user, orElse c.password asked.password⟩
  else pure c

def lookUp (user password serverId settingsFile : Option String) : Run σ Credentials := do
  match (← get).remembered with
  | some c => pure c
  | none =>
    let given (s : Option String) : Document := (s.map Document.text).getD .null
    let c ← fillFromStore ⟨given user, given password⟩ serverId settingsFile
    let c ← fillFromOperator c
    modify fun w => { w with remembered := some c }
    pure c

/-- The credentials of a source; nothing if it has none. Every call is counted. -/
def resolve (source : CredentialSource) : Run σ (Option Credentials) := do
  match source with
  | .nowhere => pure none
  | .given c => do
    modify fun w => { w with asked := w.asked + 1 }
    pure (some c)
  | .lookup user password serverId settingsFile => do
    modify fun w => { w with asked := w.asked + 1 }
    let c ← lookUp user password serverId settingsFile
    pure (some c)

end Credentials

end ServerDeploy
