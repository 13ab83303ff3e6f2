import ServerDeploy.Proofs.Resource.Composing
import ServerDeploy.Proofs.Resource.Requests

/-! The courses that batches take. A batch ends where the first of its parts fails, and a run ends
with the first batch that fails. -/

namespace ServerDeploy

namespace Resource

abbrev Target := Resource × Option String

def startBatch (options : AddOptions) (t : Target) : Batch :=
  ⟨((addressOrNone t.1.address) <|> (addressOrNone options.base)).getD "", t.2, .pending, [], none⟩

def composedBatch (t : Target) (address : Address) (c : Composite) (status : BatchStatus) : Batch :=
  ⟨address.text, t.2, status, c.steps, none⟩

variable {σ : Type} [Endpoint σ]

/-- The ways a batch can go, each with what the parts of the batch did. -/
inductive Course (client : Nat) (options : AddOptions) (t : Target) :
    World σ → Batch → Option Fault → World σ → Prop
  | refused {w w₁ : World σ} {fault : Fault}
      (hcompose : compose client t.1 options.base t.2 options.force w = (.error fault, w₁)) :
      Course client options t w (endBatch (startBatch options t) fault) (some fault) w₁
  | skipped {w w₁ : World σ} {composed : Composed}
      (hcompose : compose client t.1 options.base t.2 options.force w = (.ok composed, w₁))
      (hnone : composed.composite = none) :
      Course client options t w ⟨composed.address.text, t.2, .skipped, [], none⟩ none w₁
  | planned {w w₁ : World σ} {composed : Composed} {c : Composite}
      (hcompose : compose client t.1 options.base t.2 options.force w = (.ok composed, w₁))
      (hc : composed.composite = some c) (hdry : options.dryRun = true) :
      Course client options t w (composedBatch t composed.address c .planned) none w₁
  | hookFailed {w w₁ w₂ : World σ} {composed : Composed} {c : Composite} {fault : Fault}
      (hcompose : compose client t.1 options.base t.2 options.force w = (.ok composed, w₁))
      (hc : composed.composite = some c) (hdry : options.dryRun = false)
      (hbefore : Hook.run client t.1.beforeAdd w₁ = (.error fault, w₂)) :
      Course client options t w (endBatch (composedBatch t composed.address c .pending) fault)
        (some fault) w₂
  | rejected {w w₁ w₂ w₃ : World σ} {composed : Composed} {c : Composite} {n : Nat} {fault : Fault}
      (hcompose : compose client t.1 options.base t.2 options.force w = (.ok composed, w₁))
      (hc : composed.composite = some c) (hdry : options.dryRun = false)
      (hbefore : Hook.run client t.1.beforeAdd w₁ = (.ok n, w₂))
      (hsubmit : Client.executeRequired client (.obj c.build) w₂ = (.error fault, w₃)) :
      Course client options t w (endBatch (composedBatch t composed.address c .pending) fault)
        (some fault) w₃
  | unfinished {w w₁ w₂ w₃ w₄ : World σ} {composed : Composed} {c : Composite} {n : Nat} {o : Outcome}
      {fault : Fault}
      (hcompose : compose client t.1 options.base t.2 options.force w = (.ok composed, w₁))
      (hc : composed.composite = some c) (hdry : options.dryRun = false)
      (hbefore : Hook.run client t.1.beforeAdd w₁ = (.ok n, w₂))
      (hsubmit : Client.executeRequired client (.obj c.build) w₂ = (.ok o, w₃))
      (hafter : Hook.run client t.1.afterAdd w₃ = (.error fault, w₄)) :
      Course client options t w (endBatch (composedBatch t composed.address c .committed) fault)
        (some fault) w₄
  | committed {w w₁ w₂ w₃ w₄ : World σ} {composed : Composed} {c : Composite} {n m : Nat} {o : Outcome}
      (hcompose : compose client t.1 options.base t.2 options.force w = (.ok composed, w₁))
      (hc : composed.composite = some c) (hdry : options.dryRun = false)
      (hbefore : Hook.run client t.1.beforeAdd w₁ = (.ok n, w₂))
      (hsubmit : Client.executeRequired client (.obj c.build) w₂ = (.ok o, w₃))
      (hafter : Hook.run client t.1.afterAdd w₃ = (.ok m, w₄)) :
      Course client options t w (composedBatch t composed.address c .committed) none w₄

omit [Endpoint σ] in
theorem during_apply {α : Type} (b : Batch) (body : Run σ α)
    (next : α → Run σ (Batch × Option Fault)) (w : World σ) :
    during b body next w = match body w with
      | (.ok v, w') => next v w'
      | (.error fault, w') => (.ok (endBatch b fault, some fault), w') := by
  unfold during
  rw [Run.bind_apply, Run.outcome_apply]
  rcases body w with ⟨_ | v, w'⟩ <;> rfl

theorem submit_course {client : Nat} {options : AddOptions} {t : Target} {w w₁ : World σ}
    {composed : Composed} {c : Composite}
    (hcompose : compose client t.1 options.base t.2 options.force w = (.ok composed, w₁))
    (hc : composed.composite = some c) (hdry : options.dryRun = false) : ∃ b fault w',
      submit client t.1 c (composedBatch t composed.address c .pending) w₁ = (.ok (b, fault), w') ∧
        Course client options t w b fault w' := by
  unfold submit
  dsimp only
  rw [during_apply, Run.bind_apply]
  rcases hbefore : Hook.run client t.1.beforeAdd w₁ with ⟨fault | n, w₂⟩
  · exact ⟨_, _, _, rfl, .hookFailed hcompose hc hdry hbefore⟩
  · dsimp only
    rw [Run.bind_apply]
    rcases hsubmit : Client.executeRequired client (.obj c.build) w₂ with ⟨fault | o, w₃⟩
    · exact ⟨_, _, _, rfl, .rejected hcompose hc hdry hbefore hsubmit⟩
    · simp only [Run.pure_apply]
      rw [during_apply]
      rcases hafter : Hook.run client t.1.afterAdd w₃ with ⟨fault | m, w₄⟩
      · exact ⟨_, _, _, rfl, .unfinished hcompose hc hdry hbefore hsubmit hafter⟩
      · exact ⟨_, _, _, rfl, .committed hcompose hc hdry hbefore hsubmit hafter⟩

theorem addOne_course (client : Nat) (options : AddOptions) (t : Target) (w : World σ) :
    ∃ b fault w', addOne client options t.1 t.2 w = (.ok (b, fault), w') ∧
      Course client options t w b fault w' := by
  unfold addOne
  dsimp only
  rw [during_apply]
  rcases hcompose : compose client t.1 options.base t.2 options.force w with ⟨fault | composed, w₁⟩
  · exact ⟨_, _, _, rfl, .refused hcompose⟩
  · dsimp only
    cases hc : composed.composite with
    | none => exact ⟨_, _, _, rfl, .skipped hcompose hc⟩
    | some c =>
      cases hdry : options.dryRun with
      | true => exact ⟨_, _, _, rfl, .planned hcompose hc hdry⟩
      | false => exact submit_course hcompose hc hdry

/-- A batch that was committed was composed, and its composite was executed between the hooks. -/
theorem Course.of_committed {client : Nat} {options : AddOptions} {t : Target} {w w' : World σ}
    {b : Batch} {fault : Option Fault} (h : Course client options t w b fault w')
    (hb : b.status = .committed) : ∃ composed c w₁ n w₂ o w₃,
      compose client t.1 options.base t.2 options.force w = (.ok composed, w₁) ∧
        composed.composite = some c ∧ Hook.run client t.1.beforeAdd w₁ = (.ok n, w₂) ∧
        Client.executeRequired client (.obj c.build) w₂ = (.ok o, w₃) ∧
        w' = (Hook.run client t.1.afterAdd w₃).2 ∧ b.address = composed.address.text := by
  cases h with
  | @refused _ fault _ => cases fault <;> cases hb
  | skipped _ _ => cases hb
  | planned _ _ _ => cases hb
  | @hookFailed _ _ _ _ fault _ _ _ _ => cases fault <;> cases hb
  | @rejected _ _ _ _ _ _ fault _ _ _ _ _ => cases fault <;> cases hb
  | @unfinished _ _ _ _ _ _ _ _ fault hcompose hc _ hbefore hsubmit hafter =>
    refine ⟨_, _, _, _, _, _, _, hcompose, hc, hbefore, hsubmit, by rw [hafter], ?_⟩
    cases fault <;> rfl
  | committed hcompose hc _ hbefore hsubmit hafter =>
    exact ⟨_, _, _, _, _, _, _, hcompose, hc, hbefore, hsubmit, by rw [hafter], rfl⟩

section Outcomes

variable {client : Nat} (options : AddOptions) (t : Target) {w w₁ w₂ : World σ}

theorem addOne_refused {fault : Fault}
    (h : compose client t.1 options.base t.2 options.force w = (.error fault, w₁)) :
    addOne client options t.1 t.2 w =
      (.ok (endBatch (startBatch options t) fault, some fault), w₁) := by
  unfold addOne
  dsimp only
  rw [during_apply, h]
  rfl

theorem addOne_skipped {composed : Composed}
    (h : compose client t.1 options.base t.2 options.force w = (.ok composed, w₁))
    (hnone : composed.composite = none) :
    addOne client options t.1 t.2 w =
      (.ok (⟨composed.address.text, t.2, .skipped, [], none⟩, none), w₁) := by
  unfold addOne
  dsimp only
  rw [during_apply, h]
  dsimp only
  rw [hnone]
  rfl

theorem addOne_planned {composed : Composed} {c : Composite}
    (h : compose client t.1 options.base t.2 options.force w = (.ok composed, w₁))
    (hc : composed.composite = some c) (hdry : options.dryRun = true) :
    addOne client options t.1 t.2 w =
      (.ok (composedBatch t composed.address c .planned, none), w₁) := by
  unfold addOne
  dsimp only
  rw [during_apply, h]
  dsimp only
  rw [hc]
  dsimp only
  rw [if_pos hdry]
  rfl

/-- What follows once the composite of a resource without a first hook is executed. -/
theorem addOne_submitted {composed : Composed} {c : Composite} {o : Outcome}
    (h : compose client t.1 options.base t.2 options.force w = (.ok composed, w₁))
    (hc : composed.composite = some c) (hdry : options.dryRun = false) (hbefore : t.1.beforeAdd = none)
    (hsubmit : Client.executeRequired client (.obj c.build) w₁ = (.ok o, w₂)) :
    addOne client options t.1 t.2 w =
      during (composedBatch t composed.address c .committed) (Hook.run client t.1.afterAdd)
        (fun _ => pure (composedBatch t composed.address c .committed, none)) w₂ := by
  have hsent : (do
      let _ ← Hook.run client none
      let _ ← Client.executeRequired client (.obj c.build)
      pure () : Run σ Unit) w₁ = (.ok (), w₂) := by
    rw [Run.bind_of_ok (Hook.run_none client w₁), Run.bind_of_ok hsubmit, Run.pure_apply]
  unfold addOne
  dsimp only
  rw [during_apply, h]
  simp only [hc, hdry, Bool.false_eq_true, if_false]
  unfold submit
  rw [hbefore]
  dsimp only
  rw [during_apply, hsent]
  rfl

/-- A resource without hooks is committed when its composite is executed. -/
theorem addOne_committed {composed : Composed} {c : Composite} {o : Outcome}
    (h : compose client t.1 options.base t.2 options.force w = (.ok composed, w₁))
    (hc : composed.composite = some c) (hdry : options.dryRun = false)
    (hbefore : t.1.beforeAdd = none) (hafter : t.1.afterAdd = none)
    (hsubmit : Client.executeRequired client (.obj c.build) w₁ = (.ok o, w₂)) :
    addOne client options t.1 t.2 w =
      (.ok (composedBatch t composed.address c .committed, none), w₂) := by
  rw [addOne_submitted options t h hc hdry hbefore hsubmit, during_apply, hafter, Hook.run_none]
  rfl

end Outcomes

/-- The batches of a run, up to the first fault. -/
inductive Courses (client : Nat) (options : AddOptions) :
    List Target → World σ → List Batch → Option Fault → World σ → Prop
  | nil (w : World σ) : Courses client options [] w [] none w
  | stop {t : Target} {rest : List Target} {w w' : World σ} {b : Batch} {fault : Fault}
      (h : Course client options t w b (some fault) w') :
      Courses client options (t :: rest) w [b] (some fault) w'
  | cons {t : Target} {rest : List Target} {w w₁ w' : World σ} {b : Batch} {bs : List Batch}
      {fault : Option Fault} (h : Course client options t w b none w₁)
      (hrest : Courses client options rest w₁ bs fault w') :
      Courses client options (t :: rest) w (b :: bs) fault w'

theorem addEach_courses (client : Nat) (options : AddOptions) (ts : List Target) (w : World σ) :
    ∃ bs fault w', addEach client options ts w = (.ok (bs, fault), w') ∧
      Courses client options ts w bs fault w' := by
  induction ts generalizing w with
  | nil => exact ⟨[], none, w, rfl, .nil w⟩
  | cons t ts ih =>
    obtain ⟨r, profile⟩ := t
    obtain ⟨b, fault, w₁, hb, hcourse⟩ := addOne_course client options (r, profile) w
    unfold addEach
    rw [Run.bind_of_ok hb]
    cases fault with
    | some fault => exact ⟨[b], some fault, w₁, rfl, .stop hcourse⟩
    | none =>
      obtain ⟨bs, fault, w', hbs, hcourses⟩ := ih w₁
      dsimp only
      rw [Run.bind_of_ok hbs]
      exact ⟨b :: bs, fault, w', rfl, .cons hcourse hcourses⟩

end Resource

end ServerDeploy
