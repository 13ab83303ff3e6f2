import ServerDeploy.Deployment.Listing
import ServerDeploy.Deployment.Plan

/-! The plan for a deployment, chosen from what is asked for and what is on the server. -/

namespace ServerDeploy

namespace DeploymentPlan

def addressOf (name : String) : Address := ⟨[(Operation.deploymentKey, name)]⟩

def shownCriterion (name : String) (pattern : Option String) : String :=
  match pattern with
  | some p => if p.isEmpty then name else p
  | none => name

def nothingToUndeploy (criterion : String) : String :=
  "No deployment matching '" ++ criterion ++ "' to undeploy"

variable {σ : Type} [Endpoint σ]

omit [Endpoint σ] in
/-- Deployments only go to standalone servers. -/
def requireStandalone (client : Nat) : Run σ Unit := do
  if (← Run.client client).isDomain then Run.fail .domainUnsupported

def isEnabled (client : Nat) (name : String) : Run σ Bool := do
  let op := Operation.readAttribute "enabled" (addressOf name)
  let r ← Client.executeRequired client (.obj op)
  pure r.result.isSomething

/-- Chooses the plan. What only adds content does not look at the server; a replaced deployment
that is added by force stays enabled if it was. -/
def choose (client : Nat) (type : DeploymentType) (archive : Archive) (pattern : Option String) :
    Run σ DeploymentPlan := do
  requireStandalone client
  let name := archive.deploymentName
  let criterion := shownCriterion name pattern
  let find : Run σ (Option String) := Deployments.find client (some name) pattern
  match type with
  | .add => pure (.add archive false)
  | .deploy => pure (.add archive true)
  | .forceAdd => do
    match ← find with
    | none => pure (.add archive false)
    | some existing => do
      let enabled ← isEnabled client existing
      pure (.replace archive existing enabled)
  | .forceDeploy => do
    match ← find with
    | none => pure (.add archive true)
    | some existing => pure (.replace archive existing true)
  | .redeploy => do
    match ← find with
    | none => Run.fail (.deploymentNotFound criterion)
    | some existing => pure (.replace archive existing true)
  | .undeploy => do
    match ← find with
    | none => Run.fail (.deploymentNotFound criterion)
    | some existing => pure (.remove existing)
  | .undeployIgnoreMissing => do
    match ← find with
    | none => pure (.nothing (nothingToUndeploy criterion))
    | some existing => pure (.remove existing)

end DeploymentPlan

end ServerDeploy
