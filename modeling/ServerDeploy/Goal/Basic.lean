import ServerDeploy.Artifact.Repository
import ServerDeploy.Deployment.Execution
import ServerDeploy.Resource.Addition
import ServerDeploy.Server.Control
import ServerDeploy.Settings.ConnectionSettings

/-! Goals: units of work on one server. A goal owns the connection while it runs and closes it at the
end; goals that manage a running server first check its preconditions. -/

namespace ServerDeploy

/-- What a goal does once its server can be reached. -/
inductive Task where
  | addResources (resources : List Resource) (base : Option String) (profiles : List String)
      (force dryRun : Bool)
  | executeCommands (commands : Hook)
  | deploy (archive : Archive) (force enabled : Bool) (pattern : Option String)
  | deployArtifact (coordinates : Option Coordinates) (file name : Option String)
      (repositories : Repositories) (force : Bool) (pattern : Option String)
  | undeployArtifact (coordinates : Option Coordinates) (file name pattern : Option String)
      (ignoreMissing : Bool)
  | start (server : ServerConfig)
  | run (server : ServerConfig) (archive : Archive) (force : Bool)
  | shutdown (reload : Bool) (reloadTimeout : Int)
  deriving Repr, Inhabited

/-- A task and how to reach its server. -/
structure Goal where
  settings : ConnectionSettings
  task : Task
  deriving Repr, Inhabited

inductive GoalResult where
  /-- Its preconditions were not met. -/
  | skipped
  | added (report : Report)
  | executed (count : Nat)
  | deployed (result : DeploymentResult)
  | finished
  deriving Repr, Inhabited

namespace Task

def name : Task → String
  | .addResources _ _ _ _ _ => "add-resource"
  | .executeCommands _ => "execute-commands"
  | .deploy _ _ _ _ => "deploy"
  | .deployArtifact _ _ _ _ _ _ => "deploy-artifact"
  | .undeployArtifact _ _ _ _ _ => "undeploy-artifact"
  | .start _ => "start"
  | .run _ _ _ => "run"
  | .shutdown _ _ => "shutdown"

def hasPreconditions : Task → Bool
  | .start _ | .run _ _ _ | .shutdown _ _ => false
  | _ => true

def artifactType (force : Bool) : DeploymentType := .deploying force true

/-- The deployment that is to be removed; only its name counts. -/
def undeployed (coordinates : Option Coordinates) (file name pattern : Option String) :
    Except Fault Archive :=
  let given (s : Option String) : Bool := s.any fun s => !s.isEmpty
  if given file then .ok ⟨.ofText (file.getD ""), name⟩
  else match coordinates with
    | some c =>
      match c.missing? with
      | some problem => .error (.deploy (.artifact problem))
      | none => .ok ⟨.ofText c.fileName, name⟩
    | none =>
      if given name || given pattern then .ok ⟨.ofText (name.getD ""), name⟩
      else .error (.configuration .nothingToUndeploy)

variable {σ : Type} [Endpoint σ]

/-- Adds resources; a fault that ended the run is a fault of the task. -/
def addAll (client : Nat) (options : Resource.AddOptions) (profiles : List String)
    (resources : List Resource) : Run σ GoalResult := do
  let (report, fault) ← Resource.addAll client options profiles resources
  match fault with
  | some fault => throw fault
  | none => pure (.added report)

omit [Endpoint σ] in
/-- The archive of a deployment must be there; messages show its path in a form of their own. -/
def requireArchive (archive : Archive) (shown : Path) : Run σ Unit := do
  if !(← Run.pathExists archive.path) then
    throw (.configuration (.deploymentMissing shown.text))

/-- Looks at a server until it no longer runs, up to a number of times; then the operator interrupts
the run. -/
def blockWhileRunning : Nat → Run σ Unit
  | 0 => throw .interrupted
  | patience + 1 => do
    if ← Server.isRunning then
      Run.sleep 1000
      blockWhileRunning patience

/-- Launches a server and waits until it runs. -/
def startServer (config : ServerConfig) : Run σ Unit := do
  config.validate
  Server.start config
  Server.waitForStart config.startupTimeout Server.startInterval

/-- Deploys to a server that was launched, and waits until it stops. -/
def deployAndBlock (config : ServerConfig) (archive : Archive) (force : Bool) :
    Run σ DeploymentResult := do
  Server.waitForStart config.startupTimeout Server.startInterval
  let client ← Connection.getClient
  let r ← DeploymentPlan.run client (.deploying force true) archive none
  if r.requiresRestart then
    let _ ← Client.executeRequired client (.obj (Operation.make "reload" .empty []))
  blockWhileRunning (← get).terminal.patience
  pure r

/-- Runs a server with a deployment. However that ends, the server is stopped. -/
def runServer (config : ServerConfig) (archive : Archive) (force : Bool) :
    Run σ DeploymentResult := do
  requireArchive archive (← Run.absolute archive.path)
  config.validate
  Server.start config
  Run.andFinally (deployAndBlock config archive force) (Server.stop Server.defaultStopTimeout)

def execute : Task → Run σ GoalResult
  | .addResources resources base profiles force dryRun => do
    let client ← Connection.getClient
    addAll client ⟨base, force, dryRun⟩ profiles resources
  | .executeCommands commands => do
    let client ← Connection.getClient
    let count ← Hook.run client (some commands)
    pure (.executed count)
  | .deploy archive force enabled pattern => do
    requireArchive archive archive.path
    let client ← Connection.getClient
    .deployed <$> DeploymentPlan.run client (.deploying force enabled) archive pattern
  | .deployArtifact coordinates file name repositories force pattern => do
    let path ← repositories.resolveArtifact coordinates file
    let client ← Connection.getClient
    .deployed <$> DeploymentPlan.run client (artifactType force) ⟨path, name⟩ pattern
  | .undeployArtifact coordinates file name pattern ignoreMissing => do
    let client ← Connection.getClient
    let archive ← Run.ofExcept (undeployed coordinates file name pattern)
    .deployed <$> DeploymentPlan.run client (.undeploying ignoreMissing) archive pattern
  | .start config => do
    startServer config
    pure .finished
  | .run config archive force => .deployed <$> runServer config archive force
  | .shutdown true timeout => do
    let client ← Connection.getClient
    Client.reload client (.whole timeout) Client.reloadInterval
    pure .finished
  | .shutdown false _ => do
    let client ← Connection.getClient
    let r ← Client.shutdown client
    let _ ← Run.ofExcept r.require
    pure .finished

end Task

namespace Goal

variable {σ : Type}

/-- The connection of a goal, not yet used. -/
def connect (s : ConnectionSettings) : Run σ Unit :=
  modify fun w =>
    { w with
      remembered := none
      connection := ⟨s.hostname, s.port, .lookup s.user s.password s.serverId s.settingsFile, none,
        none, .unresolved⟩ }

variable [Endpoint σ]

/-- Runs a goal. The host is looked up first, and the connection is closed however the rest ends. -/
def run (g : Goal) : Run σ GoalResult := do
  connect g.settings
  let _ ← Connection.hostAddress
  let work : Run σ GoalResult := do
    let wanted ←
      if g.task.hasPreconditions then
        Connection.checkPreconditions g.settings.ifExists g.settings.ifNotExists
      else pure true
    if wanted then g.task.execute else pure .skipped
  Run.andFinally work Connection.close

end Goal

end ServerDeploy
