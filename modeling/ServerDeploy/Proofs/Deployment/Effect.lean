import ServerDeploy.Proofs.Deployment.Choice

/-! What a deployment does to the deployments of a server. The operations of a plan touch the entries
they name, and together with the plan that is chosen this gives the map after each kind of
deployment. -/

namespace ServerDeploy

open DeploymentServer ManagementServer

namespace DeploymentPlan

variable {m m' : DeploymentMap} {name existing : String} {hash : Json} {enabled : Bool}

theorem get?_of_enableSteps {kind : String} (hkind : kind = "deploy" ∨ kind = "redeploy")
    (h : (if enabled then [Operation.make kind (addressOf name) []] else []).foldlM change? m =
      some m') :
    m'.get? = Function.update m.get? name
      ((m.get? name).map fun d => { d with enabled := d.enabled || enabled }) := by
  cases enabled with
  | false =>
    cases h
    simp
  | true =>
    rw [if_pos rfl, List.foldlM_cons] at h
    have hchange : change? m (Operation.make kind (addressOf name) []) =
        m.update name fun d => { d with enabled := true } := by
      rcases hkind with rfl | rfl
      · exact change_deploy
      · exact change_redeploy
    rw [hchange] at h
    obtain ⟨m₁, hm₁, hend⟩ := Option.bind_eq_some_iff.mp h
    cases hend
    simpa using DeploymentMap.get?_of_update hm₁

theorem get?_of_addSteps (h : (addSteps name hash enabled).foldlM change? m = some m') :
    m'.get? = Function.update m.get? name (some ⟨enabled, contentOf hash⟩) := by
  rw [addSteps, List.foldlM_cons, change_add] at h
  obtain ⟨m₁, hm₁, hrest⟩ := Option.bind_eq_some_iff.mp h
  rw [get?_of_enableSteps (.inl rfl) hrest, DeploymentMap.get?_of_add hm₁, Function.update_self,
    Function.update_idem]
  simp

theorem get?_of_removeSteps (h : (removeSteps name).foldlM change? m = some m') :
    m'.get? = Function.update m.get? name none := by
  rw [removeSteps, List.foldlM_cons, change_undeploy] at h
  obtain ⟨m₁, hm₁, hrest⟩ := Option.bind_eq_some_iff.mp h
  rw [List.foldlM_cons, change_remove] at hrest
  obtain ⟨m₂, hm₂, hend⟩ := Option.bind_eq_some_iff.mp hrest
  cases hend
  rw [DeploymentMap.get?_of_remove hm₂, DeploymentMap.get?_of_update hm₁, Function.update_idem]

/-- Under the same name what is enabled stays enabled; another name takes the whole place. -/
theorem get?_of_replaceSteps
    (h : (replaceSteps name existing hash enabled).foldlM change? m = some m') :
    m'.get? = if existing = name then
        Function.update m.get? name
          ((m.get? name).map fun d => ⟨d.enabled || enabled, contentOf hash⟩)
      else Function.update (Function.update m.get? existing none) name
        (some ⟨enabled, contentOf hash⟩) := by
  unfold replaceSteps at h
  split at h
  · next hsame =>
    rw [if_pos hsame]
    rw [List.foldlM_cons, change_fullReplace] at h
    obtain ⟨m₁, hm₁, hrest⟩ := Option.bind_eq_some_iff.mp h
    rw [get?_of_enableSteps (.inr rfl) hrest, DeploymentMap.get?_of_update hm₁,
      Function.update_self, Function.update_idem, Option.map_map]
    rfl
  · next hother =>
    rw [if_neg hother]
    rw [List.foldlM_append] at h
    obtain ⟨m₁, hm₁, hrest⟩ := Option.bind_eq_some_iff.mp h
    rw [get?_of_addSteps hrest, get?_of_removeSteps hm₁]

variable {client : Nat} {w w' : World DeploymentServer}

/-- The content that the server knows after the upload of a file. -/
def uploaded (w : World DeploymentServer) (path : Path) : Json :=
  match (Run.readContent path w).1 with
  | .ok content => contentOf (.str (w.endpoint.digest path.name content))
  | .error _ => .null

theorem uploaded_of_undisturbed (h : w.Undisturbed w') (path : Path) :
    uploaded w' path = uploaded w path := by
  obtain ⟨talk, hf⟩ := h.follows
  unfold uploaded
  rw [Run.readContent_of_files hf.files hf.directory, h.endpoint]

theorem upload_ok {path : Path} {hash : Json} (h : Client.upload client path w = (.ok hash, w')) :
    contentOf hash = uploaded w path ∧ w'.endpoint = w.endpoint := by
  obtain ⟨content, o, hcontent, hreceive, hhash, -⟩ := upload_receives h
  have hanswer : receive w.endpoint path.name content =
      (succeeded (.obj [("BYTES_VALUE", .str (w.endpoint.digest path.name content))]),
        w.endpoint) := rfl
  obtain ⟨rfl, he⟩ := Prod.mk.inj (hanswer.symm.trans hreceive)
  refine ⟨?_, he.symm⟩
  have hread : Client.contentHash
      (succeeded (.obj [("BYTES_VALUE", .str (w.endpoint.digest path.name content))])) =
        .ok (.str (w.endpoint.digest path.name content)) := rfl
  rw [hread] at hhash
  cases hhash
  rw [uploaded, hcontent]

def outcome (plan : DeploymentPlan) (w : World DeploymentServer) (before : String → Option Deployed) :
    String → Option Deployed :=
  match plan with
  | .add archive enabled =>
    Function.update before archive.deploymentName (some ⟨enabled, uploaded w archive.path⟩)
  | .replace archive existing enabled =>
    if existing = archive.deploymentName then
      Function.update before archive.deploymentName
        ((before archive.deploymentName).map fun d =>
          ⟨d.enabled || enabled, uploaded w archive.path⟩)
    else Function.update (Function.update before existing none) archive.deploymentName
      (some ⟨enabled, uploaded w archive.path⟩)
  | .remove existing => Function.update before existing none
  | .nothing _ => before

theorem execute_outcome {plan : DeploymentPlan} {result : DeploymentResult}
    (h : execute client plan w = (.ok result, w')) :
    w'.endpoint.deployments.get? = plan.outcome w w.endpoint.deployments.get? := by
  obtain ⟨ops, w₁, hsteps, happlied⟩ := execute_applies h
  cases plan with
  | add archive enabled =>
    obtain ⟨hash, w₂, hupload, hend⟩ := Run.ok_of_bind hsteps
    obtain ⟨hcontent, he⟩ := upload_ok hupload
    cases hend
    have hmap := get?_of_addSteps
      (changes_of_applied (fun op hop => (planOperation_addSteps op hop).changes) happlied)
    rw [hmap, hcontent, he, outcome]
  | replace archive existing enabled =>
    obtain ⟨hash, w₂, hupload, hend⟩ := Run.ok_of_bind hsteps
    obtain ⟨hcontent, he⟩ := upload_ok hupload
    cases hend
    have hmap := get?_of_replaceSteps
      (changes_of_applied (fun op hop => (planOperation_replaceSteps op hop).changes) happlied)
    rw [hmap, hcontent, he, outcome]
  | remove existing =>
    cases hsteps
    exact get?_of_removeSteps (changes_of_applied
      (fun op hop => (planOperation_removeSteps .null op hop).changes) happlied)
  | nothing reason =>
    cases hsteps
    have hsame := changes_of_applied (by simp) happlied
    rw [← Option.some.inj hsame, outcome]

end DeploymentPlan

/-- The deployments after what was asked for, where `existing` is the deployment that is there and
`content` what the file holds. There are none where nothing is there that must be. -/
def DeploymentType.effect (type : DeploymentType) (name : String) (existing : Option String)
    (content : Json) (before : String → Option Deployed) : Option (String → Option Deployed) :=
  match type, existing with
  | .add, _ | .forceAdd, none => some (Function.update before name (some ⟨false, content⟩))
  | .deploy, _ | .forceDeploy, none => some (Function.update before name (some ⟨true, content⟩))
  | .forceAdd, some e =>
    some (Function.update (Function.update before e none) name
      ((before e).map fun d => ⟨d.enabled, content⟩))
  | .forceDeploy, some e | .redeploy, some e =>
    some (Function.update (Function.update before e none) name (some ⟨true, content⟩))
  | .undeploy, some e | .undeployIgnoreMissing, some e => some (Function.update before e none)
  | .undeployIgnoreMissing, none => some before
  | .redeploy, none | .undeploy, none => none

namespace DeploymentPlan

theorem outcome_replace {w : World DeploymentServer} {archive : Archive} {existing : String}
    {enabled : Bool} {before : String → Option Deployed} {d : Deployed}
    (hd : before existing = some d) (he : (d.enabled || enabled) = enabled) :
    (DeploymentPlan.replace archive existing enabled).outcome w before =
      Function.update (Function.update before existing none) archive.deploymentName
        (some ⟨enabled, uploaded w archive.path⟩) := by
  rw [outcome]
  split
  · next hsame =>
    rw [← hsame, hd, Option.map_some, he, Function.update_idem]
  · rfl

theorem effect_of_planned {type : DeploymentType} {archive : Archive} {criterion : String}
    {existing : Option String} {m : DeploymentMap} {plan : DeploymentPlan}
    (hexisting : ∀ e, existing = some e → e ∈ m.names)
    (h : planned type archive criterion existing m = some plan) (w : World DeploymentServer) :
    type.effect archive.deploymentName existing (uploaded w archive.path) m.get? =
      some (plan.outcome w m.get?) := by
  cases existing with
  | none =>
    cases type <;> cases h <;> rfl
  | some e =>
    -- what stands for the pattern has an entry, and its flag is the one that a forced add keeps
    obtain ⟨d, hd⟩ := Option.isSome_iff_exists.mp (DeploymentMap.mem_names.mp (hexisting e rfl))
    cases type with
    | forceAdd =>
      rw [planned, hd] at h
      cases h
      rw [outcome_replace hd (Bool.or_self _), DeploymentType.effect, hd, Option.map_some]
    | forceDeploy =>
      cases h
      rw [outcome_replace hd (Bool.or_true _), DeploymentType.effect]
    | redeploy =>
      cases h
      rw [outcome_replace hd (Bool.or_true _), DeploymentType.effect]
    | add | deploy | undeploy | undeployIgnoreMissing =>
      cases h
      rfl

variable {client : Nat} {w w' : World DeploymentServer}

/-- A server that asks for credentials and runs a shop. Texts are their own digests. -/
def shopServer : DeploymentServer where
  deployments := ⟨[("shop.war", ⟨true, .null⟩), ("mail.war", ⟨false, .null⟩)], by decide⟩
  digest := fun _ content =>
    match content with
    | .text s => s
    | .archive _ => ""
  reloadRequired := ["redeploy"]
  isGuarded := true

def shopWorld : World DeploymentServer :=
  { World.ready shopServer with
    sessions := [⟨true, .given ⟨.scalar (.text "user"), .scalar (.text "password")⟩, none, false⟩]
    files := ⟨[(["work"], .directory), (["work", "shop.war"], .file (.text "release"))]⟩ }

end DeploymentPlan

end ServerDeploy
