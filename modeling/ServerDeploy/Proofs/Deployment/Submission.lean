import ServerDeploy.Deployment.Execution
import ServerDeploy.Proofs.Fault.Kinds
import ServerDeploy.Proofs.Model.Composite
import ServerDeploy.Proofs.Session.ManagementServer

/-! What a deployment that ends well says about its composite. A failure of the composite is laid to
one of its steps at least, so without a failing step the server has applied all of them. -/

namespace ServerDeploy

namespace ActionResult

theorem rootFailure?_eq_none {actions : List ActionResult} :
    rootFailure? actions = none ↔ ∀ a ∈ actions, a.outcome.isFailure = false := by
  induction actions with
  | nil => simp [rootFailure?]
  | cons a rest ih =>
    rw [List.forall_mem_cons, ← ih, rootFailure?]
    cases hrest : rootFailure? rest with
    | none => cases ha : a.outcome.isFailure <;> simp
    | some b =>
      dsimp only
      split <;> simp

theorem length_ofSteps {r : Outcome} {number : Nat} {steps : List Json} {actions : List ActionResult}
    (h : ofSteps r number steps = .ok actions) : actions.length = steps.length := by
  induction steps generalizing number actions with
  | nil =>
    cases h
    rfl
  | cons step rest ih =>
    unfold ofSteps at h
    obtain ⟨action, -, h⟩ := eq_ok_of_bind h
    obtain ⟨more, hmore, h⟩ := eq_ok_of_bind h
    cases h
    simp [ih hmore]

/-- A response that failed has a failing step. -/
theorem exists_failure_of_settle {r : Outcome} {actions : List ActionResult}
    (hr : r.isSuccessful = false) (hne : actions ≠ []) :
    ∃ a ∈ settle r actions, a.outcome.isFailure = true := by
  unfold settle
  rw [hr, Bool.false_or]
  split
  · next h =>
    obtain ⟨a, ha, hf⟩ := List.any_eq_true.mp h
    exact ⟨a, ha, hf⟩
  · cases actions with
    | nil => exact absurd rfl hne
    | cons a rest => exact ⟨_, List.mem_cons_self, rfl⟩

theorem isSuccessful_of_ofResponse {steps : List Json} {r : Outcome} {actions : List ActionResult}
    (h : ofResponse steps r = .ok actions) (hsteps : steps ≠ [])
    (hroot : rootFailure? actions = none) : r.isSuccessful = true := by
  unfold ofResponse at h
  cases hs : ofSteps r 1 steps with
  | error e =>
    rw [hs] at h
    cases h
  | ok fates =>
    rw [hs] at h
    cases h
    have hlength := length_ofSteps hs
    have hne : fates ≠ [] := by
      rintro rfl
      exact hsteps (List.length_eq_zero_iff.mp hlength.symm)
    cases hr : r.isSuccessful with
    | true => rfl
    | false =>
      obtain ⟨a, ha, hf⟩ := exists_failure_of_settle hr hne
      rw [rootFailure?_eq_none.mp hroot a ha] at hf
      cases hf

end ActionResult

namespace DeploymentPlan

open ManagementServer

variable {σ : Type} [ManagementServer σ]

omit [ManagementServer σ] in
theorem requireStandalone_ok {client : Nat} {w w' : World σ}
    (h : requireStandalone client w = (.ok (), w')) : w' = w := by
  unfold requireStandalone at h
  obtain ⟨c, w₁, hc, hif⟩ := Run.ok_of_bind h
  cases hc
  split at hif
  · cases hif
  · cases hif
    rfl

/-- A plan whose execution ends well has all its operations applied, after the upload. -/
theorem execute_applies {client : Nat} {plan : DeploymentPlan} {w w' : World σ}
    {result : DeploymentResult} (h : execute client plan w = (.ok result, w')) :
    ∃ ops w₁, steps client plan w = (.ok ops, w₁) ∧ Applied w₁.endpoint ops w'.endpoint := by
  unfold execute at h
  obtain ⟨_, w₀, hstandalone, hsubmit⟩ := Run.ok_of_bind h
  obtain rfl := requireStandalone_ok hstandalone
  obtain ⟨ops, w₁, hsteps, hrest⟩ := Run.ok_of_bind hsubmit
  refine ⟨ops, w₁, hsteps, ?_⟩
  split at hrest
  · next hempty =>
    rw [List.isEmpty_iff.mp hempty]
    cases hrest
    exact .nil _
  · next hne =>
    obtain ⟨c, w₂, hc, hexecuted⟩ := Run.ok_of_bind hrest
    obtain ⟨hadd, rfl⟩ := Run.ok_of_ofExcept hc
    obtain ⟨r, w₂, hexecute, hinterpreted⟩ := Run.ok_of_bind hexecuted
    obtain ⟨actions, w₃, hactions, hend⟩ := Run.ok_of_bind hinterpreted
    obtain ⟨hresponse, rfl⟩ := Run.ok_of_ofExcept hactions
    obtain rfl := Composite.eq_of_addSteps hadd
    cases hroot : ActionResult.rootFailure? actions with
    | some a =>
      rw [hroot] at hend
      cases hend
    | none =>
      rw [hroot] at hend
      cases hend
      -- had the composite failed, a step would have, and with it there would be a root failure
      have hs := ActionResult.isSuccessful_of_ofResponse hresponse
        (by simpa [Composite.empty] using hne) hroot
      obtain ⟨hperform, -⟩ := execute_performs hexecute
      rw [Composite.empty, List.nil_append, perform_composite] at hperform
      exact applied_of_composite hperform hs

end DeploymentPlan

end ServerDeploy
