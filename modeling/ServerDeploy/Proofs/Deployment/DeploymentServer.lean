import ServerDeploy.Proofs.Deployment.DeploymentMap
import ServerDeploy.Proofs.Deployment.PlanOperation
import ServerDeploy.Proofs.Session.ManagementServer

/-! A standalone server that keeps an ordered map of deployments. Operations that change it are told
apart from those that read it, and the steps that a plan is made of are followed through the map. -/

namespace ServerDeploy

open ManagementServer

/-- A server of deployments. What is uploaded becomes known by a digest. -/
structure DeploymentServer where
  deployments : DeploymentMap
  digest : String → Content → String
  /-- Operations after which the server asks to be reloaded. -/
  reloadRequired : List String
  isGuarded : Bool

namespace DeploymentServer

def target? (op : Operation) : Option String :=
  match op.get? Operation.addressKey with
  | some (.arr [.obj [(key, .str name)]]) =>
    if key = Operation.deploymentKey then some name else none
  | _ => none

def readEnabled (d : Option Deployed) : Outcome :=
  match d with
  | some d => succeeded (.bool d.enabled)
  | none => failed (.str "No such deployment")

def read? (m : DeploymentMap) (op : Operation) : Option Outcome :=
  match op.get? Operation.nameKey with
  | some (.str "read-children-names") =>
    some <| match op.get? Operation.addressKey, op.get? "child-type" with
      | some (.arr []), some (.str "deployment") => succeeded (.arr (m.names.map .str))
      | _, _ => failed (.str "No such children")
  | some (.str "read-attribute") =>
    some <| match op.get? "name" with
      | some (.str "enabled") => readEnabled ((target? op).bind m.get?)
      | _ => failed (.str "No such attribute")
  | _ => none

def contentIn (op : Operation) : Json := (op.get? "content").getD .null

/-- The deployments after an operation, if it can be executed. A full replacement names its
deployment by a parameter and does not take a state. -/
def change? (m : DeploymentMap) (op : Operation) : Option DeploymentMap :=
  match op.get? Operation.nameKey with
  | some (.str "full-replace-deployment") =>
    match op.get? "name", op.get? "enabled" with
    | some (.str name), none => m.update name fun d => { d with content := contentIn op }
    | _, _ => none
  | some (.str kind) =>
    match target? op with
    | none => none
    | some name =>
      match kind with
      | "add" => m.add name ⟨false, contentIn op⟩
      | "remove" => m.remove name
      | "deploy" | "redeploy" => m.update name fun d => { d with enabled := true }
      | "undeploy" => m.update name fun d => { d with enabled := false }
      | _ => none
  | _ => none

def execute (s : DeploymentServer) (op : Operation) : Outcome × DeploymentServer :=
  match read? s.deployments op with
  | some r => (r, s)
  | none =>
    match change? s.deployments op with
    | some m => (succeeded .null, { s with deployments := m })
    | none => (failed (.str "The operation cannot be executed"), s)

def needsReload (s : DeploymentServer) (op : Operation) : Bool :=
  match op.get? Operation.nameKey with
  | some (.str name) => s.reloadRequired.contains name
  | _ => false

instance : ManagementServer DeploymentServer where
  isGuarded s := s.isGuarded
  step := execute
  headers s op :=
    if needsReload s op then
      [(ActionResult.headersKey, .obj [("operation-requires-reload", .bool true),
        ("process-state", .str "reload-required")])]
    else []
  receive s name content := (succeeded (.obj [("BYTES_VALUE", .str (s.digest name content))]), s)

theorem change_of_success {s s' : DeploymentServer} {op : Operation}
    (hread : read? s.deployments op = none) (h : (step s op).1.isSuccessful = true)
    (hs : (step s op).2 = s') :
    change? s.deployments op = some s'.deployments ∧
      s' = { s with deployments := s'.deployments } := by
  change (execute s op).1.isSuccessful = true at h
  change (execute s op).2 = s' at hs
  unfold execute at h hs
  rw [hread] at h hs
  dsimp only at h hs
  cases hc : change? s.deployments op with
  | none =>
    rw [hc] at h
    cases h
  | some m =>
    rw [hc] at hs
    subst hs
    exact ⟨rfl, rfl⟩

def Changes (op : Operation) : Prop := ∀ m, read? m op = none

/-- Changes that were all applied have gone through the map one after the other. -/
theorem changes_of_applied {ops : List Operation} {s s' : DeploymentServer}
    (hops : ∀ op ∈ ops, Changes op) (h : Applied s ops s') :
    ops.foldlM change? s.deployments = some s'.deployments := by
  induction h with
  | nil s => rfl
  | cons h hs _ ih =>
    obtain ⟨hchange, -⟩ := change_of_success (hops _ List.mem_cons_self _) h hs
    rw [List.foldlM_cons, hchange]
    exact ih fun op hop => hops op (.tail _ hop)

end DeploymentServer

namespace DeploymentPlan

open DeploymentServer

variable {m m' : DeploymentMap} {name : String} {hash : Json}

theorem PlanOperation.changes {op : Operation} (h : PlanOperation hash op) : Changes op := by
  intro m
  cases h with
  | add | fullReplace | deploy | redeploy | undeploy | remove => rfl

theorem change_add : change? m (Operation.make "add" (addressOf name)
    [("runtime_name", .str name), ("content", contentOf hash)]) =
      m.add name ⟨false, contentOf hash⟩ := rfl

theorem change_deploy : change? m (Operation.make "deploy" (addressOf name) []) =
    m.update name fun d => { d with enabled := true } := rfl

theorem change_redeploy : change? m (Operation.make "redeploy" (addressOf name) []) =
    m.update name fun d => { d with enabled := true } := rfl

theorem change_undeploy : change? m (Operation.make "undeploy" (addressOf name) []) =
    m.update name fun d => { d with enabled := false } := rfl

theorem change_remove : change? m (Operation.make "remove" (addressOf name) []) =
    m.remove name := rfl

theorem change_fullReplace : change? m (Operation.make "full-replace-deployment" .empty
    [("name", .str name), ("content", contentOf hash)]) =
      m.update name fun d => { d with content := contentOf hash } := rfl

end DeploymentPlan

end ServerDeploy
