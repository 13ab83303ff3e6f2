import ServerDeploy.Deployment.Execution
import ServerDeploy.Proofs.Session.Endings

/-! How deployments end. A deployment that is served has no faults but those of a server. -/

namespace ServerDeploy

open Fault World Run

variable {σ : Type} [Endpoint σ] (w₀ : World σ) (client : Nat)

theorem Deployments.ends_find (name pattern : Option String) :
    Ends .server (w₀.Serves client) (find client name pattern : Run σ (Option String)) := by
  have listed : Ends .server (w₀.Serves client) (names client : Run σ (List String)) :=
    (Client.ends_executeRequired w₀ client _).bind fun r =>
      (ends_ofExcept (Client.plainly_namesOf r.result)).bind fun _ => ends_pure _
  exact (ends_ofExcept (plainly_criterion name pattern)).bind fun _ => listed.bind fun _ => ends_pure _

namespace DeploymentPlan

omit [Endpoint σ] in
theorem ends_requireStandalone :
    Ends .server (w₀.Serves client) (requireStandalone client : Run σ Unit) := by
  refine Leads.bind (Q := fun _ => w₀.Serves client) (ends_get.bind fun _ => ends_pure _) fun c => ?_
  split
  · exact ends_fail _
  · exact ends_pure _

theorem ends_isEnabled (name : String) :
    Ends .server (w₀.Serves client) (isEnabled client name : Run σ Bool) :=
  (Client.ends_executeRequired w₀ client _).bind fun _ => ends_pure _

theorem ends_choose (type : DeploymentType) (archive : Archive) (pattern : Option String) :
    Ends .server (w₀.Serves client) (choose client type archive pattern : Run σ DeploymentPlan) := by
  have found {next : Option String → Run σ DeploymentPlan}
      (h : ∀ existing, Ends .server (w₀.Serves client) (next existing)) :
      Ends .server (w₀.Serves client)
        (Deployments.find client (some archive.deploymentName) pattern >>= next) :=
    (Deployments.ends_find w₀ client _ _).bind h
  refine (ends_requireStandalone w₀ client).bind fun _ => ?_
  cases type with
  | add => exact ends_pure _
  | deploy => exact ends_pure _
  | forceAdd =>
    refine found fun existing => ?_
    cases existing with
    | none => exact ends_pure _
    | some existing => exact (ends_isEnabled w₀ client existing).bind fun _ => ends_pure _
  | forceDeploy =>
    refine found fun existing => ?_
    cases existing <;> exact ends_pure _
  | redeploy =>
    refine found fun existing => ?_
    cases existing with
    | none => exact ends_fail _
    | some existing => exact ends_pure _
  | undeploy =>
    refine found fun existing => ?_
    cases existing with
    | none => exact ends_fail _
    | some existing => exact ends_pure _
  | undeployIgnoreMissing =>
    refine found fun existing => ?_
    cases existing <;> exact ends_pure _

theorem ends_steps (plan : DeploymentPlan) :
    Ends .server (w₀.Serves client) (steps client plan : Run σ (List Operation)) := by
  cases plan with
  | add archive enabled => exact (Client.ends_upload w₀ client _).bind fun _ => ends_pure _
  | replace archive existing enabled =>
    exact (Client.ends_upload w₀ client _).bind fun _ => ends_pure _
  | remove existing => exact ends_pure _
  | nothing reason => exact ends_pure _

theorem ends_execute (plan : DeploymentPlan) :
    Ends .server (w₀.Serves client) (execute client plan : Run σ DeploymentResult) := by
  refine (ends_requireStandalone w₀ client).bind fun _ => (ends_steps w₀ client plan).bind fun ops => ?_
  split
  · exact ends_pure _
  refine (ends_ofExcept (Composite.plainly_addSteps _ _)).bind fun c => ?_
  refine (Client.ends_execute w₀ client _).bind fun r => ?_
  refine (ends_ofExcept (ActionResult.plainly_ofResponse _ _)).bind fun actions => ?_
  split
  · exact ends_fail _
  · exact ends_pure _

theorem ends_run (type : DeploymentType) (archive : Archive) (pattern : Option String) :
    Ends .server (w₀.Serves client) (run client type archive pattern : Run σ DeploymentResult) :=
  (ends_choose w₀ client type archive pattern).bind fun plan => ends_execute w₀ client plan

end DeploymentPlan

end ServerDeploy
