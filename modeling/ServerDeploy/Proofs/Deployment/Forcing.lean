import ServerDeploy.Proofs.Deployment.Progress

/-! When forcing helps. A forced deployment puts content in the place of the one deployment that is
found; its composite is refused just when the name of the content belongs to another one. -/

namespace ServerDeploy

open DeploymentServer ManagementServer

/-- Content can be put in the place of what is found under its name: that is what has the name
already, or nothing has it. -/
def DeploymentMap.HasRoom (m : DeploymentMap) (name : String) (pattern : Option String) : Prop :=
  m.present name pattern = some name ∨ name ∉ m.names

theorem DeploymentMap.hasRoom_named (m : DeploymentMap) (name : String) : m.HasRoom name none := by
  by_cases hm : name ∈ m.names
  · exact .inl (if_pos hm)
  · exact .inr hm

/-- The operation adds a deployment with the name. -/
def Operation.Adds (op : Operation) (name : String) : Prop :=
  op.get? nameKey = some (.str "add") ∧
    op.get? addressKey = some (DeploymentPlan.addressOf name).model

namespace DeploymentPlan

/-- The plan that puts an archive in the place of what is there. -/
def placing (archive : Archive) (existing : Option String) (enabled : Bool) : DeploymentPlan :=
  match existing with
  | none => .add archive enabled
  | some existing => .replace archive existing enabled

def placingSteps (name : String) (existing : Option String) (hash : Json) (enabled : Bool) :
    List Operation :=
  match existing with
  | none => addSteps name hash enabled
  | some existing => replaceSteps name existing hash enabled

section Steps

variable {name existing : String} {found pattern : Option String} {hash : Json} {enabled : Bool}
  {s : DeploymentServer}

theorem planOperation_placingSteps :
    ∀ op ∈ placingSteps name found hash enabled, PlanOperation hash op := by
  cases found with
  | none => exact planOperation_addSteps
  | some existing => exact planOperation_replaceSteps

theorem placingSteps_ne_nil : placingSteps name found hash enabled ≠ [] := by
  cases found with
  | none => simp [placingSteps, addSteps]
  | some existing =>
    unfold placingSteps replaceSteps
    dsimp only
    split <;> simp [removeSteps]

theorem fails_addSteps (hash : Json) (enabled : Bool) (h : name ∈ s.deployments.names) :
    ∃ op, op.Adds name ∧ FailsAt s (addSteps name hash enabled) op := by
  refine ⟨_, ⟨rfl, rfl⟩, [], _, s, rfl, .nil s, ?_⟩
  have hrefused : s.deployments.add name ⟨false, contentOf hash⟩ = none := by
    rw [← Option.not_isSome_iff_eq_none, DeploymentMap.isSome_add]
    exact not_not_intro h
  rw [step_of_refusal (PlanOperation.add name).changes (change_add.trans hrefused)]
  rfl

theorem fails_replaceSteps (hexisting : existing ∈ s.deployments.names)
    (hname : name ∈ s.deployments.names) (hother : existing ≠ name) :
    ∃ op, op.Adds name ∧ FailsAt s (replaceSteps name existing hash enabled) op := by
  have hchanges : ∀ op ∈ removeSteps existing, Changes op := fun op hop =>
    (planOperation_removeSteps .null op hop).changes
  obtain ⟨m, hm, hnames⟩ := exists_removeSteps hexisting
  obtain ⟨t, hremoved⟩ := (exists_applied_iff hchanges).2 (by rw [hm]; rfl)
  have ht : m = t.deployments :=
    Option.some.inj (hm.symm.trans (changes_of_applied hchanges hremoved))
  -- the removal of the other deployment leaves the name taken
  have htaken : name ∈ t.deployments.names := ht ▸ (hnames name).2 ⟨hother.symm, hname⟩
  obtain ⟨op, hadds, hfails⟩ := fails_addSteps hash enabled htaken
  unfold replaceSteps
  rw [if_neg hother]
  exact ⟨op, hadds, hfails.after hremoved⟩

theorem applied_placingSteps (h : s.deployments.HasRoom name pattern) :
    ∃ s', Applied s (placingSteps name (s.deployments.present name pattern) hash enabled) s' := by
  refine (exists_applied_iff fun op hop => (planOperation_placingSteps op hop).changes).2 ?_
  cases hfound : s.deployments.present name pattern with
  | none =>
    have hfree : name ∉ s.deployments.names := h.resolve_left (by rw [hfound]; exact nofun)
    exact isSome_addSteps hfree
  | some existing =>
    refine isSome_replaceSteps (DeploymentMap.mem_of_present hfound) ?_
    rcases h with hsame | hfree
    · exact .inl (Option.some.inj (hfound.symm.trans hsame))
    · exact .inr hfree

theorem fails_placingSteps (hash : Json) (enabled : Bool) (h : ¬s.deployments.HasRoom name pattern) :
    ∃ op, op.Adds name ∧
      FailsAt s (placingSteps name (s.deployments.present name pattern) hash enabled) op := by
  obtain ⟨hother, htaken⟩ := not_or.1 h
  have hname := not_not.1 htaken
  cases hfound : s.deployments.present name pattern with
  | none => exact fails_addSteps hash enabled hname
  | some existing =>
    refine fails_replaceSteps (DeploymentMap.mem_of_present hfound) hname ?_
    rintro rfl
    exact hother hfound

end Steps

variable {client : Nat} {w w' : World DeploymentServer} {type : DeploymentType} {archive : Archive}
  {pattern : Option String}

theorem eq_placing_of_planned {criterion : String} {existing : Option String} {m : DeploymentMap}
    {plan : DeploymentPlan} (htype : type = .forceAdd ∨ type = .forceDeploy)
    (h : planned type archive criterion existing m = some plan) :
    ∃ enabled, plan = placing archive existing enabled := by
  rcases htype with rfl | rfl
  · cases existing with
    | none =>
      cases h
      exact ⟨false, rfl⟩
    | some e =>
      obtain ⟨d, -, rfl⟩ := Option.map_eq_some_iff.1 h
      exact ⟨d.enabled, rfl⟩
  · cases existing with
    | none =>
      cases h
      exact ⟨true, rfl⟩
    | some e =>
      cases h
      exact ⟨true, rfl⟩

theorem choose_forced (archive : Archive) (htype : type = .forceAdd ∨ type = .forceDeploy) (hw : w.Connected client)
    (hpattern : ∀ p, pattern = some p → ∃ q, Pattern.parse p = .ok q) :
    ∃ enabled w', choose client type archive pattern w =
        (.ok (placing archive (w.endpoint.deployments.present archive.deploymentName pattern) enabled),
          w') ∧ w'.Connected client ∧ w.Undisturbed w' := by
  obtain ⟨w₁, hfind, hw₁⟩ := Deployments.find_connected archive.deploymentName hw hpattern
  obtain ⟨-, hkept⟩ := Deployments.find_ok hfind
  have hchosen : ∃ plan w', choose client type archive pattern w = (.ok plan, w') ∧
      w'.Connected client := by
    unfold choose
    rw [Run.bind_of_ok (requireStandalone_connected hw)]
    cases hfound : w.endpoint.deployments.present archive.deploymentName pattern with
    | none =>
      rw [hfound] at hfind
      rcases htype with rfl | rfl
      · exact ⟨_, w₁, Run.bind_of_ok hfind, hw₁⟩
      · exact ⟨_, w₁, Run.bind_of_ok hfind, hw₁⟩
    | some existing =>
      rw [hfound] at hfind
      rcases htype with rfl | rfl
      · have hmem := DeploymentMap.mem_of_present hfound
        rw [← hkept.endpoint] at hmem
        obtain ⟨d, hd⟩ := Option.isSome_iff_exists.1 (DeploymentMap.mem_names.1 hmem)
        obtain ⟨w₂, henabled, hw₂⟩ := isEnabled_connected hw₁ hd
        exact ⟨_, w₂, (Run.bind_of_ok hfind).trans (Run.bind_of_ok henabled), hw₂⟩
      · exact ⟨_, w₁, Run.bind_of_ok hfind, hw₁⟩
  obtain ⟨plan, w', hchoose, hw'⟩ := hchosen
  obtain ⟨hplanned, hundisturbed⟩ := choose_ok hchoose
  obtain ⟨enabled, rfl⟩ := eq_placing_of_planned htype hplanned
  exact ⟨enabled, w', hchoose, hw', hundisturbed⟩

theorem steps_placing {existing : Option String} {enabled : Bool} (hw : w.Connected client)
    (hfile : ∃ content, (Run.readContent archive.path w).1 = .ok content) :
    ∃ (digest : String) (w' : World DeploymentServer),
      steps client (placing archive existing enabled) w =
          (.ok (placingSteps archive.deploymentName existing (.str digest) enabled), w') ∧
        w'.Connected client ∧ w'.endpoint = w.endpoint := by
  obtain ⟨content, hcontent⟩ := hfile
  obtain ⟨w', hupload, hw', hendpoint⟩ := upload_gives_digest hw hcontent
  refine ⟨w.endpoint.digest archive.path.name content, w', ?_, hw', hendpoint⟩
  cases existing with
  | none => exact Run.bind_of_ok hupload
  | some existing => exact Run.bind_of_ok hupload

/-- A forced deployment always gets as far as its composite. -/
theorem run_submits (htype : type = .forceAdd ∨ type = .forceDeploy) (hw : w.Connected client)
    (hfile : ∃ content, (Run.readContent archive.path w).1 = .ok content)
    (hpattern : ∀ p, pattern = some p → ∃ q, Pattern.parse p = .ok q) :
    ∃ (digest : String) (enabled : Bool) (r : Except Fault DeploymentResult)
      (w' : World DeploymentServer), run client type archive pattern w = (r, w') ∧
        Submitted w.endpoint (placingSteps archive.deploymentName
          (w.endpoint.deployments.present archive.deploymentName pattern) (.str digest) enabled)
          r w' := by
  obtain ⟨enabled, w₁, hchoose, hw₁, hundisturbed⟩ := choose_forced archive htype hw hpattern
  obtain ⟨talk, hfollows⟩ := hundisturbed.follows
  have hread := Run.readContent_of_files hfollows.files hfollows.directory archive.path
  rw [← hread] at hfile
  obtain ⟨digest, w₂, hsteps, hw₂, hendpoint⟩ := steps_placing hw₁ hfile
  obtain ⟨r, w', hexecute, hsubmitted⟩ := execute_submits (requireStandalone_connected hw₁) hsteps
    hw₂ planOperation_placingSteps placingSteps_ne_nil
  rw [hendpoint, hundisturbed.endpoint] at hsubmitted
  exact ⟨digest, enabled, r, w', (Run.bind_of_ok hchoose).trans hexecute, hsubmitted⟩

theorem shopWorld_connected : shopWorld.Connected 0 :=
  ⟨rfl, rfl, rfl, nofun, fun _ _ => ⟨_, rfl, rfl⟩⟩

def shopArchive : Archive := ⟨.ofText "shop.war", none⟩

theorem shopArchive_readable :
    ∃ content, (Run.readContent shopArchive.path shopWorld).1 = .ok content := ⟨_, rfl⟩

theorem parses_of_isSome (pattern : String) (h : (Pattern.parse pattern).toOption.isSome = true) :
    ∀ p, some pattern = some p → ∃ q, Pattern.parse p = .ok q := by
  rintro p ⟨rfl⟩
  cases hp : Pattern.parse pattern with
  | ok q => exact ⟨q, rfl⟩
  | error reason =>
    rw [hp] at h
    cases h

end DeploymentPlan

end ServerDeploy
