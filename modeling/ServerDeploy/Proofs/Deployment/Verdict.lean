import ServerDeploy.Proofs.Deployment.Report
import ServerDeploy.Proofs.Deployment.Submission

/-! When a deployment counts as done, and which step is blamed when it does not. The verdict is a matter
of the response alone, whatever the plan and however long its composite. -/

namespace ServerDeploy

namespace Outcome

/-- The step that is blamed, of so many: the first that failed itself; without one the first that was
not executed; and if all are fine, the first. -/
inductive Cause (r : Outcome) (n : Nat) : Nat → Prop
  | failed {i : Nat} (hi : 1 ≤ i) (hn : i ≤ n) (h : r.Failed i)
      (hfirst : ∀ j, 1 ≤ j → j < i → ¬r.Failed j) : Cause r n i
  | lost {i : Nat} (hi : 1 ≤ i) (hn : i ≤ n) (hnone : ∀ j, 1 ≤ j → j ≤ n → ¬r.Failed j)
      (h : r.Missing i ∨ r.Cancelled i)
      (hfirst : ∀ j, 1 ≤ j → j < i → ¬(r.Missing j ∨ r.Cancelled j)) : Cause r n i
  | first (hfine : ∀ j, 1 ≤ j → j ≤ n → r.Fine j) : Cause r n 1

variable {r : Outcome} {i : Nat} {outcome : ActionOutcome}

theorem Fated.isFailure_eq_false (h : r.Fated i outcome) :
    outcome.isFailure = false ↔ r.Fine i ∧ (!r.isSuccessful && ActionResult.isRolledBack r) = false := by
  cases h with
  | failed h => exact ⟨nofun, fun hfine => absurd hfine.1 h.not_fine⟩
  | lost h => exact ⟨nofun, fun hfine => absurd h hfine.1.not_lost⟩
  | rolledBack h hr => exact ⟨nofun, fun hfine => absurd (hr.symm.trans hfine.2) nofun⟩
  | restart h hr hflagged => exact ⟨fun _ => ⟨h, hr⟩, fun _ => rfl⟩
  | executed h hr hflagged => exact ⟨fun _ => ⟨h, hr⟩, fun _ => rfl⟩

theorem Fated.eq_failed (h : r.Fated i outcome) (hfailed : r.Failed i) :
    outcome = .failed := by
  cases h with
  | failed => rfl
  | lost h => exact absurd h hfailed.not_lost
  | rolledBack h | restart h | executed h => exact absurd h hfailed.not_fine

theorem Fated.eq_notExecuted (h : r.Fated i outcome) (hlost : r.Missing i ∨ r.Cancelled i) :
    outcome = .notExecuted := by
  cases h with
  | lost => rfl
  | failed h => exact absurd hlost h.not_lost
  | rolledBack h | restart h | executed h => exact absurd hlost h.not_lost

theorem Fated.eq_rolledBack (h : r.Fated i outcome) (hfine : r.Fine i)
    (hr : (!r.isSuccessful && ActionResult.isRolledBack r) = true) : outcome = .rolledBack := by
  cases h with
  | rolledBack => rfl
  | failed h => exact absurd hfine h.not_fine
  | lost h => exact absurd h hfine.not_lost
  | restart h hr' | executed h hr' => exact absurd (hr.symm.trans hr') nofun

theorem Fated.fine_of_not (h : r.Fated i outcome) (hfailed : ¬r.Failed i)
    (hlost : ¬(r.Missing i ∨ r.Cancelled i)) : r.Fine i := by
  cases h with
  | failed h => exact absurd h hfailed
  | lost h => exact absurd h hlost
  | rolledBack h | restart h | executed h => exact h

theorem Fated.restart_iff (h : r.Fated i outcome) (hfine : outcome.isFailure = false) :
    outcome = .requiresRestart ↔ r.StepFlagged i ∨ RestartFlagged r := by
  cases h with
  | failed | lost | rolledBack => cases hfine
  | restart h hr hflagged => exact ⟨fun _ => hflagged, fun _ => rfl⟩
  | executed h hr hflagged => exact ⟨nofun, fun hf => absurd hf hflagged⟩

end Outcome

namespace ActionResult

open Outcome

/-- A failure of least rank, and the first of that rank. -/
structure IsRoot (actions : List ActionResult) (k : Nat) (a : ActionResult) : Prop where
  stands : actions[k]? = some a
  failure : a.outcome.isFailure = true
  least : ∀ (j : Nat) (b : ActionResult), actions[j]? = some b → b.outcome.isFailure = true →
    a.outcome.rank ≤ b.outcome.rank
  first : ∀ (j : Nat) (b : ActionResult), actions[j]? = some b → b.outcome.isFailure = true →
    j < k → a.outcome.rank < b.outcome.rank

theorem isRoot_head {a : ActionResult} {rest : List ActionResult} (ha : a.outcome.isFailure = true)
    (hrest : ∀ b ∈ rest, b.outcome.isFailure = true → a.outcome.rank ≤ b.outcome.rank) :
    IsRoot (a :: rest) 0 a := by
  refine ⟨rfl, ha, fun j b hb hfailure => ?_, fun j _ _ _ hj => absurd hj (Nat.not_lt_zero j)⟩
  rcases List.mem_cons.1 (List.mem_of_getElem? hb) with rfl | hmem
  · exact Nat.le_refl _
  · exact hrest b hmem hfailure

theorem IsRoot.cons {rest : List ActionResult} {k : Nat} {a x : ActionResult} (h : IsRoot rest k a)
    (hx : x.outcome.isFailure = true → a.outcome.rank < x.outcome.rank) :
    IsRoot (x :: rest) (k + 1) a := by
  refine ⟨h.stands, h.failure, fun j b hb hfailure => ?_, fun j b hb hfailure hj => ?_⟩
  · cases j with
    | zero =>
      obtain rfl : x = b := by simpa using hb
      exact Nat.le_of_lt (hx hfailure)
    | succ j => exact h.least j b (by simpa using hb) hfailure
  · cases j with
    | zero =>
      obtain rfl : x = b := by simpa using hb
      exact hx hfailure
    | succ j => exact h.first j b (by simpa using hb) hfailure (Nat.lt_of_succ_lt_succ hj)

theorem isRoot_of_rootFailure? {actions : List ActionResult} {a : ActionResult}
    (h : rootFailure? actions = some a) : ∃ k, IsRoot actions k a := by
  induction actions generalizing a with
  | nil => cases h
  | cons x rest ih =>
    rw [rootFailure?] at h
    cases hrest : rootFailure? rest with
    | none =>
      rw [hrest] at h
      dsimp only at h
      split at h
      · next hx =>
        cases h
        refine ⟨0, isRoot_head hx fun b hb hfailure => ?_⟩
        rw [rootFailure?_eq_none.mp hrest b hb] at hfailure
        cases hfailure
      · cases h
    | some least =>
      obtain ⟨k, hleast⟩ := ih hrest
      rw [hrest] at h
      dsimp only at h
      split at h
      · next hx =>
        cases h
        simp only [Bool.and_eq_true, decide_eq_true_eq] at hx
        refine ⟨0, isRoot_head hx.1 fun b hb hfailure => ?_⟩
        obtain ⟨j, hj⟩ := List.mem_iff_getElem?.1 hb
        exact Nat.le_trans hx.2 (hleast.least j b hj hfailure)
      · next hx =>
        cases h
        simp only [Bool.and_eq_true, decide_eq_true_eq, not_and] at hx
        exact ⟨k + 1, hleast.cons fun hfailure => Nat.lt_of_not_le (hx hfailure)⟩

variable {r : Outcome} {ops : List Operation} {fates : List ActionResult}

theorem tells_settle (h : List.Forall₂ Tells fates ops) : List.Forall₂ Tells (settle r fates) ops := by
  unfold settle
  split
  · exact h
  · cases h with
    | nil => exact .nil
    | cons ha hrest => exact .cons ⟨ha.operation, ha.deployment⟩ hrest

namespace Describes

variable (h : Describes r 1 ops fates)
include h

theorem fated_of_getElem? {k : Nat} {a : ActionResult} (hk : fates[k]? = some a) :
    k + 1 ≤ ops.length ∧ r.Fated (k + 1) a.outcome := by
  obtain ⟨hlength, -⟩ := List.getElem?_eq_some_iff.1 hk
  have hfated := h.fated k a hk
  rw [h.tells.length_eq] at hlength
  rw [Nat.add_comm] at hfated
  exact ⟨hlength, hfated⟩

theorem exists_fated {i : Nat} (hi : 1 ≤ i) (hn : i ≤ ops.length) :
    ∃ a, fates[i - 1]? = some a ∧ r.Fated i a.outcome := by
  have hlength : i - 1 < fates.length := by
    rw [h.tells.length_eq]
    omega
  have hget : fates[i - 1]? = some fates[i - 1] := List.getElem?_eq_getElem hlength
  obtain ⟨-, hfated⟩ := h.fated_of_getElem? hget
  rw [Nat.sub_add_cancel hi] at hfated
  exact ⟨_, hget, hfated⟩

theorem fine_of_no_failure (hfine : ∀ a ∈ fates, a.outcome.isFailure = false) :
    ∀ i, 1 ≤ i → i ≤ ops.length → r.Fine i := by
  intro i hi hn
  obtain ⟨a, hget, hfated⟩ := h.exists_fated hi hn
  exact (hfated.isFailure_eq_false.1 (hfine a (List.mem_of_getElem? hget))).1

theorem rootFailure?_settle_eq_none (hne : ops ≠ []) :
    rootFailure? (settle r fates) = none ↔
      r.isSuccessful = true ∧ ∀ i, 1 ≤ i → i ≤ ops.length → r.Fine i := by
  rw [rootFailure?_eq_none]
  have hfates : fates ≠ [] := by
    rintro rfl
    cases h.tells
    exact hne rfl
  cases hr : r.isSuccessful with
  | false =>
    obtain ⟨a, ha, hfailure⟩ := exists_failure_of_settle hr hfates
    refine ⟨fun hfine => ?_, nofun⟩
    rw [hfine a ha] at hfailure
    cases hfailure
  | true =>
    have hsettle : settle r fates = fates := by simp [settle, hr]
    rw [hsettle]
    refine ⟨fun hfine => ⟨rfl, h.fine_of_no_failure hfine⟩, fun ⟨_, hfine⟩ a ha => ?_⟩
    obtain ⟨k, hk⟩ := List.mem_iff_getElem?.1 ha
    obtain ⟨hlength, hfated⟩ := h.fated_of_getElem? hk
    exact hfated.isFailure_eq_false.2 ⟨hfine _ (by omega) hlength, by simp [hr]⟩

theorem not_failed_of_rank {k : Nat} {a : ActionResult} (hroot : IsRoot fates k a) {i : Nat}
    (hi : 1 ≤ i) (hn : i ≤ ops.length) (hrank : 0 < a.outcome.rank ∨ i ≤ k) : ¬r.Failed i := by
  intro hfailed
  obtain ⟨b, hb, hfated⟩ := h.exists_fated hi hn
  have houtcome := hfated.eq_failed hfailed
  have hfailure : b.outcome.isFailure = true := by rw [houtcome]; rfl
  have hzero : b.outcome.rank = 0 := by rw [houtcome]; rfl
  have hleast := hroot.least _ b hb hfailure
  have hfirst := hroot.first _ b hb hfailure
  omega

theorem not_lost_of_rank {k : Nat} {a : ActionResult} (hroot : IsRoot fates k a) {i : Nat}
    (hi : 1 ≤ i) (hn : i ≤ ops.length)
    (hrank : 1 < a.outcome.rank ∨ 1 ≤ a.outcome.rank ∧ i ≤ k) : ¬(r.Missing i ∨ r.Cancelled i) := by
  intro hlost
  obtain ⟨b, hb, hfated⟩ := h.exists_fated hi hn
  have houtcome := hfated.eq_notExecuted hlost
  have hfailure : b.outcome.isFailure = true := by rw [houtcome]; rfl
  have hone : b.outcome.rank = 1 := by rw [houtcome]; rfl
  have hleast := hroot.least _ b hb hfailure
  have hfirst := hroot.first _ b hb hfailure
  omega

theorem cause_of_isRoot {k : Nat} {a : ActionResult} (hroot : IsRoot fates k a) :
    r.Cause ops.length (k + 1) := by
  obtain ⟨hlength, hfated⟩ := h.fated_of_getElem? hroot.stands
  have hfailure := hroot.failure
  have hfirst := hroot.first
  have notFailed : ∀ i, 1 ≤ i → i ≤ ops.length → (0 < a.outcome.rank ∨ i ≤ k) → ¬r.Failed i :=
    fun _ => h.not_failed_of_rank hroot
  have notLost : ∀ i, 1 ≤ i → i ≤ ops.length → (1 < a.outcome.rank ∨ 1 ≤ a.outcome.rank ∧ i ≤ k) →
      ¬(r.Missing i ∨ r.Cancelled i) := fun _ => h.not_lost_of_rank hroot
  generalize a.outcome = outcome at hfated hfailure hfirst notFailed notLost
  cases hfated with
  | failed hfailed =>
    exact .failed (by omega) hlength hfailed fun j hj hjk => notFailed j hj (by omega) (.inr (by omega))
  | lost hlost =>
    exact .lost (by omega) hlength (fun j hj hn => notFailed j hj hn (.inl (by decide))) hlost
      fun j hj hjk => notLost j hj (by omega) (.inr ⟨by decide, by omega⟩)
  | rolledBack hfine hr =>
    have hall : ∀ j, 1 ≤ j → j ≤ ops.length → r.Fine j := by
      intro j hj hn
      obtain ⟨b, -, hb⟩ := h.exists_fated hj hn
      exact hb.fine_of_not (notFailed j hj hn (.inl (by decide))) (notLost j hj hn (.inl (by decide)))
    -- the first step was rolled back as well, so no later one comes before it
    have hzero : k = 0 := by
      by_contra hk
      obtain ⟨b, hb, hfated⟩ := h.exists_fated (Nat.le_refl 1) (by omega)
      have houtcome := hfated.eq_rolledBack (hall 1 (by omega) (by omega)) hr
      have hlt := hfirst 0 b hb (by rw [houtcome]; rfl) (by omega)
      rw [houtcome] at hlt
      exact Nat.lt_irrefl _ hlt
    rw [hzero]
    exact .first hall
  | restart | executed => cases hfailure

/-- The root failure of the settled actions stands at the step that is blamed. -/
theorem cause_of_rootFailure? {a : ActionResult} (hroot : rootFailure? (settle r fates) = some a) :
    ∃ i, r.Cause ops.length i ∧ (settle r fates)[i - 1]? = some a := by
  obtain ⟨k, hk⟩ := isRoot_of_rootFailure? hroot
  refine ⟨k + 1, ?_, hk.stands⟩
  unfold settle at hk
  split at hk
  · exact h.cause_of_isRoot hk
  · next hpatched =>
    have hnone : ∀ a ∈ fates, a.outcome.isFailure = false := by
      simp only [Bool.or_eq_true, List.any_eq_true, not_or, not_exists, not_and,
        Bool.not_eq_true] at hpatched
      exact hpatched.2
    have hfine := h.fine_of_no_failure hnone
    cases fates with
    | nil => cases hk.stands
    | cons x rest =>
      have hzero : k = 0 := by
        by_contra hne
        have hlt := hk.first 0 _ rfl rfl (by omega)
        exact Nat.not_lt_zero _ hlt
      rw [hzero]
      exact .first hfine

theorem any_restart_iff (hne : ops ≠ []) (hfine : ∀ a ∈ fates, a.outcome.isFailure = false) :
    (∃ a ∈ fates, a.outcome = .requiresRestart) ↔
      RestartFlagged r ∨ ∃ i, 1 ≤ i ∧ i ≤ ops.length ∧ r.StepFlagged i := by
  have restart {a : ActionResult} {i : Nat} (hget : fates[i - 1]? = some a)
      (hfated : r.Fated i a.outcome) :
      a.outcome = .requiresRestart ↔ r.StepFlagged i ∨ RestartFlagged r :=
    hfated.restart_iff (hfine a (List.mem_of_getElem? hget))
  constructor
  · rintro ⟨a, ha, houtcome⟩
    obtain ⟨k, hk⟩ := List.mem_iff_getElem?.1 ha
    obtain ⟨hlength, hfated⟩ := h.fated_of_getElem? hk
    rcases (hfated.restart_iff (hfine a ha)).1 houtcome with hstep | htop
    · exact .inr ⟨k + 1, by omega, hlength, hstep⟩
    · exact .inl htop
  · rintro (htop | ⟨i, hi, hn, hstep⟩)
    · have hlength := List.length_pos_of_ne_nil hne
      obtain ⟨a, hget, hfated⟩ := h.exists_fated (Nat.le_refl 1) hlength
      exact ⟨a, List.mem_of_getElem? hget, (restart hget hfated).2 (.inr htop)⟩
    · obtain ⟨a, hget, hfated⟩ := h.exists_fated hi hn
      exact ⟨a, List.mem_of_getElem? hget, (restart hget hfated).2 (.inl hstep)⟩

end Describes

end ActionResult

namespace DeploymentResult

theorem status_eq (result : DeploymentResult) :
    result.status = "requires_restart" ↔ ∃ a ∈ result.actions, a.outcome = .requiresRestart := by
  unfold status requiresRestart
  split
  · next h => simpa using h
  · next h => simpa using h

end DeploymentResult

namespace DeploymentPlan

open ActionResult Outcome

variable {σ : Type} [Endpoint σ] {client : Nat} {w w₁ w₂ : World σ} {plan : DeploymentPlan}
  {ops : List Operation} {r : Outcome}

/-- What executing a plan comes to once its composite has been answered. -/
theorem execute_of_response (hclient : requireStandalone client w = (.ok (), w))
    (hsteps : steps client plan w = (.ok ops, w₁)) (hne : ops ≠ [])
    (hresponse : Client.execute client (.obj (Composite.build ⟨true, ops.map .obj⟩)) w₁ = (.ok r, w₂))
    (hr : r.WellFormed) :
    ∃ fates, ofResponse (ops.map .obj) r = .ok (settle r fates) ∧ Describes r 1 ops fates ∧
      execute client plan w =
        match rootFailure? (settle r fates) with
        | some a => (.error (.deploy a.toError), w₂)
        | none => (.ok ⟨plan, settle r fates⟩, w₂) := by
  obtain ⟨hash, hplan⟩ := planOperation_steps hsteps
  have hops : ∀ op ∈ ops, IsStep op := fun op hop => (hplan op hop).isStep
  obtain ⟨fates, hfates, hdescribes⟩ := ofSteps_describes hr hops 1
  have hactions : ofResponse (ops.map .obj) r = .ok (settle r fates) := by
    rw [ofResponse, hfates]
    rfl
  have hcomposite : Composite.empty.addSteps (ops.map .obj) = .ok ⟨true, ops.map .obj⟩ :=
    Composite.addSteps_of_named (fun op hop => (hops op hop).named) _
  refine ⟨fates, hactions, hdescribes, ?_⟩
  have hempty : ops.isEmpty = false := List.isEmpty_eq_false_iff.2 hne
  unfold execute
  rw [Run.bind_of_ok hclient, Run.bind_of_ok hsteps, if_neg (by simp [hempty])]
  simp only [Run.bind_apply, Run.ofExcept_apply, hcomposite, hresponse, hactions]
  cases rootFailure? (settle r fates) <;> rfl

/-- The verdict on a response to the composite of a plan. -/
theorem execute_verdict (hclient : requireStandalone client w = (.ok (), w))
    (hsteps : steps client plan w = (.ok ops, w₁)) (hne : ops ≠ [])
    (hresponse : Client.execute client (.obj (Composite.build ⟨true, ops.map .obj⟩)) w₁ = (.ok r, w₂))
    (hr : r.WellFormed) :
    ∃ actions, ofResponse (ops.map .obj) r = .ok actions ∧ List.Forall₂ Tells actions ops ∧
      ((∃ result w', execute client plan w = (.ok result, w')) ↔
        r.isSuccessful = true ∧ ∀ i, 1 ≤ i → i ≤ ops.length → r.Fine i) ∧
      (∀ result w', execute client plan w = (.ok result, w') →
        result.actions = actions ∧ (result.status = "requires_restart" ↔
          RestartFlagged r ∨ ∃ i, 1 ≤ i ∧ i ≤ ops.length ∧ r.StepFlagged i)) ∧
      ∀ fault w', execute client plan w = (.error fault, w') →
        ∃ i a, r.Cause ops.length i ∧ actions[i - 1]? = some a ∧ fault = .deploy a.toError := by
  obtain ⟨fates, hactions, hdescribes, hexecute⟩ := execute_of_response hclient hsteps hne hresponse hr
  have hnone := hdescribes.rootFailure?_settle_eq_none hne
  refine ⟨settle r fates, hactions, tells_settle hdescribes.tells, ?_, ?_, ?_⟩
  · rw [← hnone, hexecute]
    cases rootFailure? (settle r fates) with
    | none => exact ⟨fun _ => rfl, fun _ => ⟨_, _, rfl⟩⟩
    | some a =>
      refine ⟨fun ⟨result, w', hok⟩ => ?_, nofun⟩
      cases hok
  · intro result w' hok
    rw [hexecute] at hok
    cases hroot : rootFailure? (settle r fates) with
    | some a =>
      rw [hroot] at hok
      cases hok
    | none =>
      rw [hroot] at hok
      cases hok
      refine ⟨rfl, ?_⟩
      have hsuccess := (hnone.1 hroot).1
      have hsettle : settle r fates = fates := by simp [settle, hsuccess]
      rw [hsettle] at hroot
      rw [DeploymentResult.status_eq, hsettle]
      exact hdescribes.any_restart_iff hne (rootFailure?_eq_none.1 hroot)
  · intro fault w' herror
    rw [hexecute] at herror
    cases hroot : rootFailure? (settle r fates) with
    | none =>
      rw [hroot] at herror
      cases herror
    | some a =>
      rw [hroot] at herror
      cases herror
      obtain ⟨i, hcause, hget⟩ := hdescribes.cause_of_rootFailure? hroot
      exact ⟨i, a, hcause, hget, rfl⟩

def refusedRemoval : Outcome :=
  [("outcome", .str "failed"), ("rolled-back", .bool true),
    ("result", .obj [("step-1", .obj [("outcome", .str "success")]),
      ("step-2", .obj [("outcome", .str "failed"), ("failure-description", .str "in use")])])]

/-- The second step failed and the first was rolled back because of it, so the second is blamed. -/
theorem execute_verdict_removal : ∃ actions a w',
    ofResponse ((removeSteps "shop.war").map .obj) refusedRemoval = .ok actions ∧
      execute 0 (.remove "shop.war")
        (World.ready ([.answer 200 (.json (.obj refusedRemoval))] : Script)) =
          (.error (.deploy a.toError), w') ∧
      refusedRemoval.Cause 2 2 ∧ actions[1]? = some a := by
  have hr : refusedRemoval.WellFormed := by
    refine ⟨.of_none rfl, fun i v hv => ?_⟩
    change Members.get? (stepKey i) [("step-1", .obj [("outcome", .str "success")]),
      ("step-2", .obj [("outcome", .str "failed"), ("failure-description", .str "in use")])] = some v
      at hv
    simp only [Members.get?] at hv
    split at hv
    · cases hv
      exact .inr ⟨_, rfl, .of_none rfl⟩
    split at hv
    · cases hv
      exact .inr ⟨_, rfl, .of_none rfl⟩
    · cases hv
  have hresponse : ∃ w', Client.execute 0
      (.obj (Composite.build ⟨true, (removeSteps "shop.war").map .obj⟩))
        (World.ready ([.answer 200 (.json (.obj refusedRemoval))] : Script)) =
          (.ok refusedRemoval, w') := ⟨_, rfl⟩
  have herror : ∃ fault w', execute 0 (.remove "shop.war")
      (World.ready ([.answer 200 (.json (.obj refusedRemoval))] : Script)) =
        (.error fault, w') := ⟨_, _, rfl⟩
  obtain ⟨w₂, hresponse⟩ := hresponse
  obtain ⟨fault, w', herror⟩ := herror
  have hsteps : steps 0 (.remove "shop.war")
      (World.ready ([.answer 200 (.json (.obj refusedRemoval))] : Script)) =
        (.ok (removeSteps "shop.war"), World.ready [.answer 200 (.json (.obj refusedRemoval))]) := rfl
  obtain ⟨actions, hactions, -, -, -, hblame⟩ :=
    execute_verdict rfl hsteps (by simp [removeSteps]) hresponse hr
  obtain ⟨i, a, hcause, hget, rfl⟩ := hblame fault w' herror
  have hfine : refusedRemoval.Fine 1 :=
    ⟨_, rfl, by simp [Members.get?, outcomeKey], by simp [Members.get?, outcomeKey]⟩
  have hfailed : refusedRemoval.Failed 2 := ⟨_, rfl, rfl⟩
  obtain rfl : i = 2 := by
    cases hcause with
    | failed hi hn h =>
      have hone : i ≠ 1 := by
        rintro rfl
        exact h.not_fine hfine
      change i ≤ 2 at hn
      omega
    | lost hi hn hnone => exact absurd hfailed (hnone 2 (by decide) (by decide))
    | first hall => exact absurd (hall 2 (by decide) (by decide)) hfailed.not_fine
  exact ⟨actions, a, w', hactions, herror, hcause, hget⟩

end DeploymentPlan

end ServerDeploy
