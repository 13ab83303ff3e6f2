import ServerDeploy.Proofs.Session.Endings
import ServerDeploy.Resource.Addition

/-! How adding resources ends. The run itself always gives its report; the fault that ended it is one
of a server. -/

namespace ServerDeploy

open Fault World Run

variable {σ : Type} [Endpoint σ] (w₀ : World σ) (client : Nat)

theorem Hook.ends_run (hook : Option Hook) :
    Ends .server (w₀.Serves client) (Hook.run client hook : Run σ Nat) := by
  have each (ops : List Operation) :
      Ends .server (w₀.Serves client) (executeEach client ops : Run σ Unit) := by
    induction ops with
    | nil => exact ends_pure _
    | cons op rest ih => exact (Client.ends_executeRequired w₀ client _).bind fun _ => ih
  have batch (ops : List Operation) :
      Ends .server (w₀.Serves client) (executeBatch client ops : Run σ Unit) :=
    (ends_ofExcept (Composite.plainly_addSteps _ _)).bind fun c =>
      (Client.ends_executeRequired w₀ client _).bind fun _ => ends_pure _
  unfold Hook.run
  split
  · exact ends_pure _
  split
  · exact ends_pure _
  refine (ends_ofExcept (plainly_operations _)).bind fun ops => ?_
  split
  · exact (batch ops).bind fun _ => ends_pure _
  · exact (each ops).bind fun _ => ends_pure _

namespace Resource

theorem ends_compose (r : Resource) (base profile : Option String) (force : Bool) :
    Ends .server (w₀.Serves client) (compose client r base profile force : Run σ Composed) :=
  (ends_ofExcept (plainly_placeAt _ _ _)).bind fun _ =>
    (Existence.ends_check w₀ client _).bind fun _ => ends_ofExcept (plainly_composeKnown _ _ _ _ _ _)

theorem ends_domainProfiles (profiles : List String) :
    Ends .server (w₀.Serves client) (domainProfiles client profiles : Run σ (List (Option String))) := by
  unfold domainProfiles
  refine ends_guard trivial ?_
  exact (Client.ends_profileNames w₀ client).bind fun known =>
    ends_ofExcept (plainly_knownProfiles _ _)

/-- A run ends with a record of the fault that ended it, if one did. -/
def Closes {α : Type} (body : Run σ (α × Option Fault)) : Prop :=
  Leads (In .server) (w₀.Serves client) body
    (fun r w => w₀.Serves client w ∧ ∀ e ∈ r.2, e.In .server) (w₀.Serves client)

variable {w₀ client}

omit [Endpoint σ] in
theorem closes_outcome {α β : Type} {body : Run σ α} {next : Except Fault α → Run σ (β × Option Fault)}
    (h : Ends .server (w₀.Serves client) body) (hok : ∀ v, Closes w₀ client (next (.ok v)))
    (herror : ∀ e : Fault, e.In .server → Closes w₀ client (next (.error e))) :
    Closes w₀ client (outcome body >>= next) := by
  refine ⟨fun w hw => ?_⟩
  have hended := h.ended w hw
  rw [bind_of_ok (outcome_apply body w)]
  rcases hb : body w with ⟨e | v, w'⟩
  · rw [hb] at hended
    exact (herror e hended.2).ended w' hended.1
  · rw [hb] at hended
    exact (hok v).ended w' hended

omit [Endpoint σ] in
theorem closes_pure {α : Type} (v : α) {fault : Option Fault} (h : ∀ e ∈ fault, e.In .server) :
    Closes w₀ client (pure (v, fault) : Run σ (α × Option Fault)) := leads_pure fun _ hw => ⟨hw, h⟩

omit [Endpoint σ] in
theorem closes_during {α : Type} {body : Run σ α} {next : α → Run σ (Batch × Option Fault)}
    (b : Batch) (h : Ends .server (w₀.Serves client) body) (hnext : ∀ v, Closes w₀ client (next v)) :
    Closes w₀ client (during b body next) :=
  closes_outcome h hnext fun e he => closes_pure _ fun e' he' => by
    cases he'
    exact he

theorem closes_addOne (options : AddOptions) (r : Resource) (profile : Option String) :
    Closes w₀ client (addOne client options r profile) := by
  refine closes_during _ (ends_compose w₀ client r _ _ _) fun composed => ?_
  have closed (b : Batch) : Closes w₀ client (pure (b, none)) := closes_pure b nofun
  split
  · exact closed _
  split
  · exact closed _
  refine closes_during _ ?_ fun _ => closes_during _ (Hook.ends_run w₀ client _) fun _ => closed _
  exact (Hook.ends_run w₀ client _).bind fun _ =>
    (Client.ends_executeRequired w₀ client _).bind fun _ => ends_pure _

theorem closes_addEach (options : AddOptions) (ts : List (Resource × Option String)) :
    Closes w₀ client (addEach client options ts) := by
  induction ts with
  | nil => exact closes_pure _ nofun
  | cons t rest ih =>
    refine (closes_addOne options t.1 t.2).bind fun r => ?_
    obtain ⟨b, _ | fault⟩ := r
    · refine (ih.bind fun r => ?_).under fun _ h => h.1
      exact leads_pure fun w hw => ⟨hw.1, hw.2⟩
    · exact leads_pure fun w hw => hw

theorem closes_addAll (options : AddOptions) (profiles : List String) (resources : List Resource) :
    Closes w₀ client (addAll client options profiles resources) := by
  unfold addAll
  split
  · exact closes_pure _ nofun
  refine Leads.bind (Q := fun _ => w₀.Serves client) (ends_get.bind fun _ => ends_pure _) fun c => ?_
  refine closes_outcome ?_ (fun profiles => ?_) fun e he => closes_pure _ fun e' he' => ?_
  · split
    · exact ends_domainProfiles w₀ client profiles
    · exact ends_pure _
  · refine (closes_addEach options _).bind fun r => ?_
    exact leads_pure fun w hw => hw
  · cases he'
    exact he

end Resource

end ServerDeploy
