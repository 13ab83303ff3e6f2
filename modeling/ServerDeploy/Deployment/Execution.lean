import ServerDeploy.Deployment.Interpretation
import ServerDeploy.Deployment.Planning
import ServerDeploy.Model.Composite

/-! Running a plan as one composite, after its content has been uploaded. -/

namespace ServerDeploy

structure DeploymentResult where
  plan : DeploymentPlan
  actions : List ActionResult
  deriving Repr, Inhabited

namespace DeploymentResult

/-- Whether the server must be reloaded before the change takes effect. -/
def requiresRestart (r : DeploymentResult) : Bool :=
  r.actions.any fun a => a.outcome == .requiresRestart

def status (r : DeploymentResult) : String :=
  if r.requiresRestart then "requires_restart" else "success"

end DeploymentResult

namespace DeploymentPlan

/-- The content parameter that refers to an upload. -/
def contentOf (hash : Json) : Json :=
  .arr [.obj [("hash", .obj [("BYTES_VALUE", hash)])]]

def addSteps (name : String) (hash : Json) (enabled : Bool) : List Operation :=
  Operation.make "add" (addressOf name)
    [("runtime_name", .str name), ("content", contentOf hash)] ::
  if enabled then [Operation.make "deploy" (addressOf name) []] else []

def removeSteps (name : String) : List Operation :=
  [Operation.make "undeploy" (addressOf name) [], Operation.make "remove" (addressOf name) []]

/-- The operations that put new content in the place of a deployment. Under the same name the
content is replaced, which keeps what is enabled enabled. -/
def replaceSteps (name existing : String) (hash : Json) (enabled : Bool) : List Operation :=
  if existing = name then
    Operation.make "full-replace-deployment" .empty
      [("name", .str name), ("content", contentOf hash)] ::
    if enabled then [Operation.make "redeploy" (addressOf name) []] else []
  else removeSteps existing ++ addSteps name hash enabled

variable {σ : Type} [Endpoint σ]

/-- The operations of a plan. Content is uploaded first. -/
def steps (client : Nat) (plan : DeploymentPlan) : Run σ (List Operation) :=
  match plan with
  | .add archive enabled => do
    let hash ← Client.upload client archive.path
    pure (addSteps archive.deploymentName hash enabled)
  | .replace archive existing enabled => do
    let hash ← Client.upload client archive.path
    pure (replaceSteps archive.deploymentName existing hash enabled)
  | .remove existing => pure (removeSteps existing)
  | .nothing _ => pure []

/-- Executes a plan. The first cause among failing steps ends the deployment. -/
def execute (client : Nat) (plan : DeploymentPlan) : Run σ DeploymentResult := do
  requireStandalone client
  let ops ← steps client plan
  if ops.isEmpty then pure ⟨plan, []⟩
  else do
    let c ← Run.ofExcept (Composite.empty.addSteps (ops.map .obj))
    let r ← Client.execute client (.obj c.build)
    let actions ← Run.ofExcept (ActionResult.ofResponse c.steps r)
    match ActionResult.rootFailure? actions with
    | some a => Run.fail a.toError
    | none => pure ⟨plan, actions⟩

/-- Plans a deployment and executes the plan. -/
def run (client : Nat) (type : DeploymentType) (archive : Archive) (pattern : Option String) :
    Run σ DeploymentResult := do
  let plan ← choose client type archive pattern
  execute client plan

end DeploymentPlan

end ServerDeploy
