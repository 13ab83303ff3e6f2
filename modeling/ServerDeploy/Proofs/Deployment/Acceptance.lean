import ServerDeploy.Proofs.Deployment.Effect
import ServerDeploy.Proofs.Deployment.Verdict
import ServerDeploy.Proofs.Session.CompositeRun

/-! What is reported on an accepted composite and on a refused one. -/

namespace ServerDeploy

open Outcome

namespace ManagementServer

variable {σ : Type} [ManagementServer σ] {s s' : σ} {ops : List Operation}

theorem mem_cancelled {number : Nat} {steps : List Json} {k : String} {v : Json}
    (h : (k, v) ∈ cancelled number steps) : v = .obj [(outcomeKey, .str "cancelled")] := by
  induction steps generalizing number with
  | nil => cases h
  | cons step steps ih =>
    rcases List.mem_cons.1 h with heq | h
    · exact (Prod.mk.inj heq).2
    · exact ih h

/-- What is reported on a step is what the step came to, or that it was cancelled. -/
theorem mem_runSteps {fits : Outcome → Prop} (hfits : ∀ op ∈ ops, ∀ s : σ, fits (stepOf s (.obj op)).1)
    (hcancelled : fits [(outcomeKey, .str "cancelled")]) {s : σ} {number : Nat} {k : String} {v : Json}
    (h : (k, v) ∈ (runSteps s number (ops.map .obj)).1) : ∃ e, v = .obj e ∧ fits e := by
  induction ops generalizing s number with
  | nil => cases h
  | cons op ops ih =>
    rw [List.map_cons, runSteps] at h
    dsimp only at h
    split at h
    · rcases List.mem_cons.1 h with heq | h
      · exact ⟨_, (Prod.mk.inj heq).2, hfits op (by simp) s⟩
      · exact ih (fun op hop => hfits op (by simp [hop])) h
    · rcases List.mem_cons.1 h with heq | h
      · exact ⟨_, (Prod.mk.inj heq).2, hfits op (by simp) s⟩
      · exact ⟨_, mem_cancelled h, hcancelled⟩

theorem runSteps_successful {number : Nat} {results : Members} {final : σ}
    (h : runSteps s number (ops.map .obj) = (results, final, none)) :
    (∀ k v, (k, v) ∈ results → ∃ e : Outcome, v = .obj e ∧ e.isSuccessful = true) ∧
      ∀ i < ops.length, ∃ v, (ActionResult.stepKey (number + i), v) ∈ results := by
  induction ops generalizing s number results with
  | nil =>
    cases h
    exact ⟨nofun, nofun⟩
  | cons op ops ih =>
    rw [List.map_cons, runSteps] at h
    dsimp only at h
    split at h
    · next hsuccess =>
      rcases hrest : runSteps (stepOf s (.obj op)).2 (number + 1) (ops.map .obj) with
        ⟨more, final', failure⟩
      rw [hrest] at h
      cases h
      obtain ⟨hentries, hkeys⟩ := ih hrest
      constructor
      · intro k v hkv
        rcases List.mem_cons.1 hkv with heq | hkv
        · exact ⟨_, (Prod.mk.inj heq).2, hsuccess⟩
        · exact hentries k v hkv
      · intro i hi
        cases i with
        | zero => exact ⟨_, List.mem_cons_self⟩
        | succ i =>
          -- the rest is numbered from the next step on
          obtain ⟨v, hv⟩ := hkeys i (by simpa using hi)
          rw [Nat.add_right_comm] at hv
          exact ⟨v, List.mem_cons_of_mem _ hv⟩
    · cases h

theorem composite_report? {i : Nat} {v : Json}
    (h : (composite s (ops.map .obj)).1.report? i = some v) :
    (ActionResult.stepKey i, v) ∈ (runSteps s 1 (ops.map .obj)).1 := by
  unfold report? composite at h
  rcases hrun : runSteps s 1 (ops.map .obj) with ⟨results, final, _ | ⟨key, description⟩⟩
  · rw [hrun] at h
    exact Members.mem_of_get? h
  · rw [hrun] at h
    exact Members.mem_of_get? h

theorem composite_wellFormed (hfits : ∀ op ∈ ops, ∀ s : σ, HeadersFit (stepOf s (.obj op)).1) :
    (composite s (ops.map .obj)).1.WellFormed := by
  refine ⟨?_, fun i v hv => .inr (mem_runSteps hfits (.of_none rfl) (composite_report? hv))⟩
  unfold composite
  rcases runSteps s 1 (ops.map .obj) with ⟨results, final, _ | ⟨key, description⟩⟩ <;>
    exact .of_none rfl

/-- A composite that succeeds reports all its steps as fine. -/
theorem composite_fine (h : (composite s (ops.map .obj)).1.isSuccessful = true) :
    ∀ i, 1 ≤ i → i ≤ ops.length → (composite s (ops.map .obj)).1.Fine i := by
  intro i hi hn
  unfold composite at h ⊢
  rcases hrun : runSteps s 1 (ops.map .obj) with ⟨results, final, _ | ⟨key, description⟩⟩
  · obtain ⟨hentries, hkeys⟩ := runSteps_successful hrun
    obtain ⟨v, hv⟩ := hkeys (i - 1) (by omega)
    rw [show 1 + (i - 1) = i by omega] at hv
    obtain ⟨found, hfound⟩ := Members.exists_get?_of_mem hv
    obtain ⟨e, rfl, he⟩ := hentries _ _ (Members.mem_of_get? hfound)
    have houtcome := isSuccessful_iff.1 he
    exact ⟨e, hfound, by simp [houtcome], by simp [houtcome]⟩
  · rw [hrun] at h
    cases h

end ManagementServer

namespace DeploymentMap

variable {m m' : DeploymentMap} {name : String}

theorem isSome_add {d : Deployed} : (m.add name d).isSome = true ↔ name ∉ m.names := by
  unfold add
  split
  · next h => simp [h]
  · next h => simp [h]

theorem isSome_update {f : Deployed → Deployed} : (m.update name f).isSome = true ↔ name ∈ m.names := by
  unfold update
  split
  · next h => simp [h]
  · next h => simp [h]

theorem isSome_remove : (m.remove name).isSome = true ↔ name ∈ m.names := by
  unfold remove
  split
  · next h => simp [h]
  · next h => simp [h]

theorem mem_names_of_add {d : Deployed} (h : m.add name d = some m') : name ∈ m'.names := by
  rw [mem_names, get?_of_add h, Function.update_self]
  rfl

theorem mem_names_of_update {f : Deployed → Deployed} (h : m.update name f = some m') (k : String) :
    k ∈ m'.names ↔ k ∈ m.names := by
  rw [mem_names, mem_names, get?_of_update h, Function.update_apply]
  split
  · next hk => rw [hk, Option.isSome_map]
  · exact Iff.rfl

theorem mem_names_of_remove (h : m.remove name = some m') (k : String) :
    k ∈ m'.names ↔ k ≠ name ∧ k ∈ m.names := by
  rw [mem_names, mem_names, get?_of_remove h, Function.update_apply]
  split
  · next hk => simp [hk]
  · next hk => simp [hk]

end DeploymentMap

namespace DeploymentServer

open ManagementServer

variable {s : DeploymentServer} {op : Operation} {ops : List Operation}

theorem step_of_change {m : DeploymentMap} (hop : Changes op)
    (h : change? s.deployments op = some m) :
    step s op = (succeeded .null, { s with deployments := m }) := by
  change execute s op = _
  unfold execute
  rw [hop s.deployments, h]

theorem step_of_refusal (hop : Changes op) (h : change? s.deployments op = none) :
    step s op = (failed (.str "The operation cannot be executed"), s) := by
  change execute s op = _
  unfold execute
  rw [hop s.deployments, h]

theorem headersFit_stepOf (hop : Changes op) (s : DeploymentServer) :
    HeadersFit (stepOf s (.obj op)).1 := by
  unfold stepOf
  dsimp only
  cases hchange : change? s.deployments op with
  | none =>
    rw [step_of_refusal hop hchange]
    exact .of_none rfl
  | some m =>
    rw [step_of_change hop hchange]
    intro v hv
    change Members.get? ActionResult.headersKey (succeeded .null ++ headers s op) = some v at hv
    change Members.get? ActionResult.headersKey (succeeded .null ++ if needsReload s op then _ else _) =
      some v at hv
    split at hv
    · cases hv
      exact .inr ⟨_, rfl⟩
    · cases hv

/-- Operations can be applied when the map of deployments takes them one after the other. -/
theorem exists_applied_iff (hops : ∀ op ∈ ops, Changes op) :
    (∃ s', Applied s ops s') ↔ (ops.foldlM change? s.deployments).isSome = true := by
  constructor
  · rintro ⟨s', happlied⟩
    rw [changes_of_applied hops happlied]
    rfl
  · intro h
    induction ops generalizing s with
    | nil => exact ⟨s, .nil s⟩
    | cons op ops ih =>
      have hop := hops op (by simp)
      rw [List.foldlM_cons] at h
      cases hchange : change? s.deployments op with
      | none =>
        rw [hchange] at h
        cases h
      | some m =>
        rw [hchange] at h
        have hstep := step_of_change hop hchange
        obtain ⟨s', hrest⟩ := ih (s := { s with deployments := m })
          (fun op hop => hops op (by simp [hop])) h
        refine ⟨s', .cons ?_ ?_ hrest⟩
        · rw [hstep]
          rfl
        · rw [hstep]

end DeploymentServer

namespace DeploymentPlan

open DeploymentServer

variable {m m' : DeploymentMap} {name existing : String} {hash : Json} {enabled : Bool}

theorem isSome_enableSteps {kind : String} (hkind : kind = "deploy" ∨ kind = "redeploy")
    (h : name ∈ m.names) :
    ((if enabled then [Operation.make kind (addressOf name) []] else []).foldlM change? m).isSome =
      true := by
  cases enabled with
  | false => rfl
  | true =>
    have hchange : change? m (Operation.make kind (addressOf name) []) =
        m.update name fun d => { d with enabled := true } := by
      rcases hkind with rfl | rfl
      · exact change_deploy
      · exact change_redeploy
    obtain ⟨m', hm'⟩ := Option.isSome_iff_exists.1 (DeploymentMap.isSome_update.2 h)
    rw [if_pos rfl, List.foldlM_cons, hchange, hm']
    rfl

theorem isSome_addSteps (h : name ∉ m.names) :
    ((addSteps name hash enabled).foldlM change? m).isSome = true := by
  obtain ⟨m', hm'⟩ := Option.isSome_iff_exists.1
    (DeploymentMap.isSome_add (d := ⟨false, contentOf hash⟩).2 h)
  rw [addSteps, List.foldlM_cons, change_add, hm']
  exact isSome_enableSteps (.inl rfl) (DeploymentMap.mem_names_of_add hm')

theorem exists_removeSteps (h : existing ∈ m.names) :
    ∃ m', (removeSteps existing).foldlM change? m = some m' ∧
      ∀ k, k ∈ m'.names ↔ k ≠ existing ∧ k ∈ m.names := by
  obtain ⟨m₁, hm₁⟩ := Option.isSome_iff_exists.1
    (DeploymentMap.isSome_update (f := fun d => { d with enabled := false }).2 h)
  have hnames := DeploymentMap.mem_names_of_update hm₁
  obtain ⟨m₂, hm₂⟩ := Option.isSome_iff_exists.1 (DeploymentMap.isSome_remove.2 ((hnames existing).2 h))
  refine ⟨m₂, ?_, fun k => ?_⟩
  · rw [removeSteps, List.foldlM_cons, change_undeploy, hm₁]
    change (change? m₁ _).bind _ = _
    rw [change_remove, hm₂]
    rfl
  · rw [DeploymentMap.mem_names_of_remove hm₂, hnames]

theorem isSome_replaceSteps (h : existing ∈ m.names) (hname : existing = name ∨ name ∉ m.names) :
    ((replaceSteps name existing hash enabled).foldlM change? m).isSome = true := by
  unfold replaceSteps
  split
  · next hsame =>
    subst hsame
    obtain ⟨m₁, hm₁⟩ := Option.isSome_iff_exists.1
      (DeploymentMap.isSome_update (f := fun d => { d with content := contentOf hash }).2 h)
    rw [List.foldlM_cons, change_fullReplace, hm₁]
    exact isSome_enableSteps (.inr rfl) ((DeploymentMap.mem_names_of_update hm₁ existing).2 h)
  · next hother =>
    obtain ⟨m₁, hm₁, hnames⟩ := exists_removeSteps h
    have hfree : name ∉ m₁.names := fun hm => (hname.resolve_left hother) ((hnames name).1 hm).2
    rw [List.foldlM_append, hm₁]
    exact isSome_addSteps hfree

end DeploymentPlan

end ServerDeploy
