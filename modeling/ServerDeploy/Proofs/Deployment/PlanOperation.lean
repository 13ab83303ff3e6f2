import ServerDeploy.Deployment.Execution
import ServerDeploy.Proofs.World.Run

/-! The operations that plans are made of. What holds of each kind of them holds of every operation
that a plan submits. -/

namespace ServerDeploy

namespace DeploymentPlan

inductive PlanOperation (hash : Json) : Operation → Prop
  | add (name : String) : PlanOperation hash (Operation.make "add" (addressOf name)
      [("runtime_name", .str name), ("content", contentOf hash)])
  | fullReplace (name : String) : PlanOperation hash (Operation.make "full-replace-deployment" .empty
      [("name", .str name), ("content", contentOf hash)])
  | deploy (name : String) : PlanOperation hash (Operation.make "deploy" (addressOf name) [])
  | redeploy (name : String) : PlanOperation hash (Operation.make "redeploy" (addressOf name) [])
  | undeploy (name : String) : PlanOperation hash (Operation.make "undeploy" (addressOf name) [])
  | remove (name : String) : PlanOperation hash (Operation.make "remove" (addressOf name) [])

variable {name existing : String} {hash : Json} {enabled : Bool}

theorem planOperation_addSteps : ∀ op ∈ addSteps name hash enabled, PlanOperation hash op := by
  intro op hop
  rcases List.mem_cons.1 hop with rfl | hop
  · exact .add name
  · cases enabled <;> simp at hop
    exact hop ▸ .deploy name

theorem planOperation_removeSteps (hash : Json) : ∀ op ∈ removeSteps name, PlanOperation hash op := by
  intro op hop
  simp only [removeSteps, List.mem_cons, List.not_mem_nil, or_false] at hop
  rcases hop with rfl | rfl
  · exact .undeploy name
  · exact .remove name

theorem planOperation_replaceSteps :
    ∀ op ∈ replaceSteps name existing hash enabled, PlanOperation hash op := by
  intro op hop
  unfold replaceSteps at hop
  split at hop
  · rcases List.mem_cons.1 hop with rfl | hop
    · exact .fullReplace name
    · cases enabled <;> simp at hop
      exact hop ▸ .redeploy name
  · rcases List.mem_append.1 hop with hop | hop
    · exact planOperation_removeSteps hash op hop
    · exact planOperation_addSteps op hop

variable {σ : Type} [Endpoint σ] {client : Nat} {w w' : World σ} {plan : DeploymentPlan}
  {ops : List Operation}

theorem planOperation_steps (h : steps client plan w = (.ok ops, w')) :
    ∃ hash, ∀ op ∈ ops, PlanOperation hash op := by
  cases plan with
  | add archive enabled =>
    obtain ⟨hash, w₁, -, hend⟩ := Run.ok_of_bind h
    cases hend
    exact ⟨hash, planOperation_addSteps⟩
  | replace archive existing enabled =>
    obtain ⟨hash, w₁, -, hend⟩ := Run.ok_of_bind h
    cases hend
    exact ⟨hash, planOperation_replaceSteps⟩
  | remove existing =>
    cases h
    exact ⟨.null, planOperation_removeSteps .null⟩
  | nothing reason =>
    cases h
    exact ⟨.null, nofun⟩

end DeploymentPlan

end ServerDeploy
