import ServerDeploy.Proofs.Model.Composite
import ServerDeploy.Proofs.Session.Plan
import ServerDeploy.Resource.Addition

/-! The requests that the parts of a batch plan: the look for the resource, its hooks and its
composite. -/

namespace ServerDeploy

open Run

variable {σ : Type} [Endpoint σ]

namespace Hook

/-- The requests of a hook whose commands can be read: one for each, or one for all. -/
def requests (hook : Option Hook) : List Call :=
  match hook with
  | none => []
  | some h =>
    if h.commands.isEmpty then []
    else match operations h.commands with
      | .error _ => []
      | .ok ops =>
        if h.batch then [.operation (.obj (Composite.build ⟨true, ops.map .obj⟩))]
        else ops.map fun op => .operation (.obj op)

theorem executeEach_performs (client : Nat) (ops : List Operation) :
    Speaks (executeEach client ops : Run σ Unit)
      (Performs (ops.map fun op => .operation (.obj op))) := by
  induction ops with
  | nil => exact performs_pure ()
  | cons op ops ih => exact performs_bind (performs_executeRequired client (.obj op)) fun _ => ih

theorem executeBatch_performs (client : Nat) (ops : List Operation) :
    Speaks (executeBatch client ops : Run σ Unit)
      (Performs [.operation (.obj (Composite.build ⟨true, ops.map .obj⟩))]) := by
  refine performs_of_value fun c hc => ?_
  obtain rfl := Composite.eq_of_addSteps hc
  exact performs_then (performs_executeRequired client _) fun _ => performs_pure ()

theorem run_none (client : Nat) (w : World σ) : run client none w = (.ok 0, w) := rfl

/-- A hook that has no commands. -/
def Idle (hook : Option Hook) : Prop := ∀ h ∈ hook, h.commands = []

theorem run_idle {client : Nat} {hook : Option Hook} (h : Idle hook) (w : World σ) :
    run client hook w = (.ok 0, w) := by
  cases hook with
  | none => rfl
  | some k =>
    unfold run
    dsimp only
    rw [h k rfl]
    rfl

theorem run_performs (client : Nat) (hook : Option Hook) :
    Speaks (run client hook : Run σ Nat) (Performs (requests hook)) := by
  cases hook with
  | none => exact performs_pure 0
  | some h =>
    unfold run requests
    dsimp only
    split
    · exact performs_pure 0
    · refine performs_of_value fun ops hops => ?_
      rw [hops]
      dsimp only
      split
      · exact performs_then (executeBatch_performs client ops) fun _ => performs_pure _
      · exact performs_then (executeEach_performs client ops) fun _ => performs_pure _

end Hook

def Existence.requests (address : Address) : List Call :=
  (address.parent?.map fun parent =>
    Call.operation (.obj (Operation.readResource parent false))).toList

theorem Existence.check_performs (client : Nat) (address : Address) :
    Speaks (check client address : Run σ Existence) (Performs (requests address)) := by
  unfold check requests
  split
  · next childType childName parent hchild hparent =>
    rw [hparent]
    refine (Client.execute_calls client _).bind (fun o calls h => ?_) fun e calls h => ?_
    · obtain ⟨c, o', rfl, hcall, hr, rfl⟩ := h.ok
      dsimp only
      split
      · exact speaks_throw (.single hcall (by simp))
      · next hs => exact speaks_ofExcept (.single hcall fun _ _ => ⟨o, hr, by simpa using hs⟩)
    · rcases h with ⟨rfl, -⟩ | ⟨c, rfl, hcall, -⟩
      · exact .nothing_of_error _ e
      · exact .single hcall (by simp)
  · exact performs_fail _ _

namespace Resource

def lookRequests (r : Resource) (base profile : Option String) : List Call :=
  match placeAt profile base r.address with
  | .error _ => []
  | .ok (_, address) => Existence.requests address

theorem compose_performs (client : Nat) (r : Resource) (base profile : Option String) (force : Bool) :
    Speaks (compose client r base profile force : Run σ Composed)
      (Performs (lookRequests r base profile)) := by
  refine performs_of_value fun (text, address) hplace => ?_
  unfold lookRequests
  rw [hplace]
  exact performs_then (Existence.check_performs client address) fun _ => performs_ofExcept _

def listingRequest : Call := .operation (.obj (Operation.readChildrenNames "profile" .empty))

theorem domainProfiles_performs (client : Nat) (profiles : List String) :
    Speaks (domainProfiles client profiles : Run σ (List (Option String)))
      (Performs [listingRequest]) := by
  have names : Speaks (Client.profileNames client : Run σ (List Json)) (Performs [listingRequest]) := by
    refine (Client.silent_client client).then (fun c => ?_) (.nothing_of_error _)
    have read := performs_then (performs_executeRequired (σ := σ) client
      (.obj (Operation.readChildrenNames "profile" .empty))) fun r =>
        performs_ofExcept (Client.namesOf r.result)
    dsimp only
    split
    · exact speaks_throw (.nothing_of_error _ _)
    · exact read
  have known := performs_then names fun known => performs_ofExcept (knownProfiles profiles known)
  unfold domainProfiles
  split
  · exact performs_fail _ _
  · exact known

theorem eq_of_knownProfiles {profiles : List String} {known : List Json}
    {chosen : List (Option String)} (h : knownProfiles profiles known = .ok chosen) :
    chosen = profiles.map some := by
  unfold knownProfiles at h
  dsimp only at h
  split at h
  · cases h
  · split at h
    · cases h
      rfl
    · split at h <;> cases h

theorem eq_of_domainProfiles {client : Nat} {profiles : List String} {chosen : List (Option String)}
    {w w' : World σ} (h : domainProfiles client profiles w = (.ok chosen, w')) :
    chosen = profiles.map some := by
  have known {w : World σ} (h : (do
      let known ← Client.profileNames client
      Run.ofExcept (knownProfiles profiles known) : Run σ (List (Option String))) w =
        (.ok chosen, w')) : chosen = profiles.map some := by
    obtain ⟨names, w₁, -, h⟩ := ok_of_bind h
    rw [ofExcept_apply] at h
    exact eq_of_knownProfiles (congrArg Prod.fst h)
  unfold domainProfiles at h
  split at h
  · cases h
  · exact known h

end Resource

end ServerDeploy
