import ServerDeploy.Proofs.Deployment.DeploymentServer
import ServerDeploy.Proofs.Deployment.Submission

/-! The plan that is chosen against a server of deployments. Looking at the server does not disturb
it, and the plan depends on its deployments alone. -/

namespace ServerDeploy

open ManagementServer

structure World.Undisturbed {σ : Type} [Endpoint σ] (w w' : World σ) : Prop where
  endpoint : w'.endpoint = w.endpoint
  follows : ∃ talk, w.Follows talk w'

theorem World.Undisturbed.refl {σ : Type} [Endpoint σ] (w : World σ) : w.Undisturbed w :=
  ⟨rfl, [], .refl w⟩

theorem World.Undisturbed.trans {σ : Type} [Endpoint σ] {w w₁ w₂ : World σ} (h : w.Undisturbed w₁)
    (h' : w₁.Undisturbed w₂) : w.Undisturbed w₂ := by
  obtain ⟨xs, hxs⟩ := h.follows
  obtain ⟨ys, hys⟩ := h'.follows
  exact ⟨h'.endpoint.trans h.endpoint, xs ++ ys, hxs.trans hys⟩

/-- The deployment that a pattern stands for, or a name if there is no pattern: the first that the
pattern fits, or the one with the name. -/
def DeploymentMap.present (m : DeploymentMap) (name : String) (pattern : Option String) :
    Option String :=
  match pattern with
  | none => if name ∈ m.names then some name else none
  | some pattern =>
    match Pattern.parse pattern with
    | .ok p => m.names.find? p.fits
    | .error _ => none

theorem DeploymentMap.mem_of_present {m : DeploymentMap} {name found : String}
    {pattern : Option String} (h : m.present name pattern = some found) : found ∈ m.names := by
  unfold present at h
  split at h
  · split at h
    · next hm =>
      cases h
      exact hm
    · cases h
  · split at h
    · exact List.mem_of_find?_eq_some h
    · cases h

theorem DeploymentMap.present_named (m : DeploymentMap) (name : String) :
    m.present name none = m.names.find? (Deployments.Criterion.named name).holds := by
  change (if name ∈ m.names then some name else none) = _
  cases hf : m.names.find? (Deployments.Criterion.named name).holds with
  | none =>
    refine if_neg fun hm => ?_
    exact List.find?_eq_none.mp hf name hm (beq_self_eq_true name)
  | some k =>
    have hholds := List.find?_some hf
    have hk : k = name := eq_of_beq hholds
    rw [hk] at hf
    rw [if_pos (List.mem_of_find?_eq_some hf), hk]

namespace Deployments

variable {client : Nat} {w w' : World DeploymentServer}

theorem namesOf_listed (names : List String) :
    Client.namesOf (Outcome.result (succeeded (.arr (names.map .str)))) =
      .ok (names.map .str) := by
  cases names <;> rfl

theorem texts_names (names : List String) : (names.map Json.str).map Json.text = names := by
  have htext : Json.text ∘ Json.str = id := rfl
  rw [List.map_map, htext, List.map_id]

theorem names_ok {found : List String} (h : names client w = (.ok found, w')) :
    found = w.endpoint.deployments.names ∧ w.Undisturbed w' := by
  unfold names at h
  obtain ⟨r, w₁, hlisted, hread⟩ := Run.ok_of_bind h
  obtain ⟨hperform, -, hfollows⟩ := executeRequired_performs hlisted
  have hanswer : perform w.endpoint Operation.listDeployments =
      (succeeded (.arr (w.endpoint.deployments.names.map .str)), w.endpoint) := rfl
  obtain ⟨rfl, he⟩ := Prod.mk.inj (hanswer.symm.trans hperform)
  obtain ⟨items, w₂, hitems, hend⟩ := Run.ok_of_bind hread
  obtain ⟨hnames, rfl⟩ := Run.ok_of_ofExcept hitems
  cases hend
  rw [namesOf_listed] at hnames
  cases hnames
  exact ⟨texts_names _, he.symm, hfollows⟩

theorem find_ok {name : String} {pattern : Option String} {found : Option String}
    (h : find client (some name) pattern w = (.ok found, w')) :
    found = w.endpoint.deployments.present name pattern ∧ w.Undisturbed w' := by
  unfold find at h
  obtain ⟨c, w₁, hcriterion, hfound⟩ := Run.ok_of_bind h
  obtain ⟨hc, rfl⟩ := Run.ok_of_ofExcept hcriterion
  obtain ⟨listed, w₂, hlisted, hend⟩ := Run.ok_of_bind hfound
  obtain ⟨rfl, hw⟩ := names_ok hlisted
  cases hend
  refine ⟨?_, hw⟩
  cases pattern with
  | none =>
    cases hc
    exact (DeploymentMap.present_named _ name).symm
  | some pattern =>
    cases hp : Pattern.parse pattern with
    | error reason =>
      simp only [criterion, hp] at hc
      cases hc
    | ok p =>
      simp only [criterion, hp] at hc
      cases hc
      simp only [DeploymentMap.present, hp]
      rfl

theorem find_then {α : Type} {name : String} {pattern : Option String}
    {next : Option String → Run DeploymentServer α} {v : α}
    (h : (find client (some name) pattern >>= next) w = (.ok v, w')) :
    ∃ w₁, next (w.endpoint.deployments.present name pattern) w₁ = (.ok v, w') ∧
      w.Undisturbed w₁ := by
  obtain ⟨found, w₁, hfind, hnext⟩ := Run.ok_of_bind h
  obtain ⟨rfl, hw⟩ := find_ok hfind
  exact ⟨w₁, hnext, hw⟩

end Deployments

namespace DeploymentPlan

open DeploymentServer

variable {client : Nat} {w w' : World DeploymentServer}

theorem perform_readEnabled (s : DeploymentServer) (name : String) :
    perform s (Operation.readAttribute "enabled" (addressOf name)) =
      (if (readEnabled (s.deployments.get? name)).isSuccessful then
        readEnabled (s.deployments.get? name)
      else rolledBack (readEnabled (s.deployments.get? name)), s) := rfl

theorem isEnabled_ok {name : String} {enabled : Bool}
    (h : isEnabled client name w = (.ok enabled, w')) :
    (∃ d, w.endpoint.deployments.get? name = some d ∧ d.enabled = enabled) ∧ w.Undisturbed w' := by
  unfold isEnabled at h
  obtain ⟨r, w₁, hread, hend⟩ := Run.ok_of_bind h
  obtain ⟨hperform, hs, hfollows⟩ := executeRequired_performs hread
  cases hend
  obtain ⟨rfl, he⟩ := Prod.mk.inj ((perform_readEnabled w.endpoint name).symm.trans hperform)
  cases hd : w.endpoint.deployments.get? name with
  | none =>
    rw [hd] at hs
    cases hs
  | some d =>
    refine ⟨⟨d, rfl, ?_⟩, he.symm, hfollows⟩
    cases d with
    | mk enabled content => cases enabled <;> rfl

/-- The plan for what is asked for, given what is on the server. There is none for what must be there
and is not. -/
def planned (type : DeploymentType) (archive : Archive) (criterion : String)
    (existing : Option String) (m : DeploymentMap) : Option DeploymentPlan :=
  match type, existing with
  | .add, _ | .forceAdd, none => some (.add archive false)
  | .deploy, _ | .forceDeploy, none => some (.add archive true)
  | .forceAdd, some e => (m.get? e).map fun d => .replace archive e d.enabled
  | .forceDeploy, some e | .redeploy, some e => some (.replace archive e true)
  | .undeploy, some e | .undeployIgnoreMissing, some e => some (.remove e)
  | .undeployIgnoreMissing, none => some (.nothing (nothingToUndeploy criterion))
  | .redeploy, none | .undeploy, none => none

theorem choose_ok {type : DeploymentType} {archive : Archive} {pattern : Option String}
    {plan : DeploymentPlan} (h : choose client type archive pattern w = (.ok plan, w')) :
    planned type archive (shownCriterion archive.deploymentName pattern)
      (w.endpoint.deployments.present archive.deploymentName pattern) w.endpoint.deployments =
        some plan ∧ w.Undisturbed w' := by
  unfold choose at h
  obtain ⟨_, w₁, hstandalone, hchosen⟩ := Run.ok_of_bind h
  obtain rfl := requireStandalone_ok hstandalone
  cases type with
  | add | deploy =>
    cases hchosen
    exact ⟨rfl, .refl _⟩
  | forceAdd =>
    obtain ⟨w₂, hend, hw⟩ := Deployments.find_then hchosen
    cases hp : w₁.endpoint.deployments.present archive.deploymentName pattern with
    | none =>
      rw [hp] at hend
      cases hend
      exact ⟨rfl, hw⟩
    | some existing =>
      rw [hp] at hend
      obtain ⟨enabled, w₃, henabled, hplan⟩ := Run.ok_of_bind hend
      obtain ⟨⟨d, hd, rfl⟩, hw'⟩ := isEnabled_ok henabled
      cases hplan
      rw [hw.endpoint] at hd
      exact ⟨by rw [planned, hd]; rfl, hw.trans hw'⟩
  | forceDeploy | undeployIgnoreMissing =>
    obtain ⟨w₂, hend, hw⟩ := Deployments.find_then hchosen
    cases hp : w₁.endpoint.deployments.present archive.deploymentName pattern with
    | none =>
      rw [hp] at hend
      cases hend
      exact ⟨rfl, hw⟩
    | some existing =>
      rw [hp] at hend
      cases hend
      exact ⟨rfl, hw⟩
  | redeploy | undeploy =>
    obtain ⟨w₂, hend, hw⟩ := Deployments.find_then hchosen
    cases hp : w₁.endpoint.deployments.present archive.deploymentName pattern with
    | none =>
      -- without a match these end in a fault
      rw [hp] at hend
      cases hend
    | some existing =>
      rw [hp] at hend
      cases hend
      exact ⟨rfl, hw⟩

end DeploymentPlan

end ServerDeploy
