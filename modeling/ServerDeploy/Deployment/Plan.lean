import ServerDeploy.World.Path

/-! What is asked for, the archive it is asked for, and the plans that answer it. -/

namespace ServerDeploy

inductive DeploymentType where
  | add
  | deploy
  | forceAdd
  | forceDeploy
  | redeploy
  | undeploy
  | undeployIgnoreMissing
  deriving DecidableEq, Repr, Inhabited

namespace DeploymentType

def name : DeploymentType → String
  | .add => "add"
  | .deploy => "deploy"
  | .forceAdd => "force_add"
  | .forceDeploy => "force_deploy"
  | .redeploy => "redeploy"
  | .undeploy => "undeploy"
  | .undeployIgnoreMissing => "undeploy_ignore_missing"

def all : List DeploymentType :=
  [.add, .deploy, .forceAdd, .forceDeploy, .redeploy, .undeploy, .undeployIgnoreMissing]

def ofName? (s : String) : Option DeploymentType := all.find? fun t => t.name == s

/-- How an archive is to be deployed: over what is there when forced, and enabled or not. -/
def deploying (force enabled : Bool) : DeploymentType :=
  match enabled, force with
  | true, true => .forceDeploy
  | true, false => .deploy
  | false, true => .forceAdd
  | false, false => .add

/-- How a deployment is to be removed: its absence is ignored or an error. -/
def undeploying (ignoreMissing : Bool) : DeploymentType :=
  if ignoreMissing then .undeployIgnoreMissing else .undeploy

end DeploymentType

/-- A deployment archive, with the name it is deployed under if one was chosen. -/
structure Archive where
  path : Path
  name : Option String
  deriving DecidableEq, Repr, Inhabited

/-- The name of the deployment: the chosen one unless it is empty, else the file name. -/
def Archive.deploymentName (a : Archive) : String :=
  match a.name with
  | some name => if name.isEmpty then a.path.name else name
  | none => a.path.name

inductive DeploymentPlan where
  /-- New content, enabled or not. -/
  | add (archive : Archive) (enabled : Bool)
  /-- New content in the place of a deployment that is there. -/
  | replace (archive : Archive) (existing : String) (enabled : Bool)
  /-- A deployment that is there goes. -/
  | remove (existing : String)
  | nothing (reason : String)
  deriving DecidableEq, Repr, Inhabited

end ServerDeploy
