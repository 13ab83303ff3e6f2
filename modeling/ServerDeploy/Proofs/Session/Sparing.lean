import ServerDeploy.Deployment.Execution
import ServerDeploy.Proofs.Session.Lifetime

/-! What talk with the endpoint leaves alone. Whatever is asked of a server and however that ends, the
server process is not touched and nothing is downloaded. -/

namespace ServerDeploy

variable {σ : Type}

/-- What lies outside of all talk with the endpoint is the same in two worlds. -/
structure World.Spares (w w' : World σ) : Prop where
  process : w'.process = w.process
  urls : w'.urls = w.urls

theorem World.spares_refl (w : World σ) : w.Spares w := ⟨rfl, rfl⟩

theorem World.Spares.trans {w w₁ w₂ : World σ} (h : w.Spares w₁) (h' : w₁.Spares w₂) : w.Spares w₂ :=
  ⟨h'.process.trans h.process, h'.urls.trans h.urls⟩

namespace Run

variable {α β : Type}

def Sparing (body : Run σ α) : Prop := ∀ w : World σ, w.Spares (body w).2

theorem Sparing.of_eq {body : Run σ α} (h : Sparing body) {w w' : World σ} {r : Except Fault α}
    (he : body w = (r, w')) : w.Spares w' := by
  have hw := h w
  rwa [he] at hw

theorem Still.sparing {body : Run σ α} (h : Still body) : Sparing body := by
  intro w
  rw [h w]
  exact World.spares_refl w

theorem Sparing.bind {body : Run σ α} {next : α → Run σ β} (h : Sparing body)
    (hnext : ∀ v, Sparing (next v)) : Sparing (body >>= next) :=
  related_bind (fun h h' => h.trans h') h hnext

theorem Sparing.tryCatch {body : Run σ α} {handler : Fault → Run σ α} (h : Sparing body)
    (hh : ∀ e, Sparing (handler e)) : Sparing (tryCatch body handler) :=
  related_tryCatch (fun h h' => h.trans h') h hh

end Run

open Run

section

variable [Endpoint σ]

theorem Session.Step.spares {w w' : World σ} (h : Session.Step w w') : w.Spares w' := by
  cases h with
  | exchange hc => exact ⟨rfl, rfl⟩
  | challenge h => exact ⟨rfl, rfl⟩
  | ask hr hd h =>
    rw [h.world]
    exact ⟨rfl, rfl⟩
  | grant ha hopen hs => exact ⟨rfl, rfl⟩
  | wait milliseconds => exact ⟨rfl, rfl⟩

theorem Session.spares_of_steps {w w' : World σ} (h : Session.Steps w w') : w.Spares w' := by
  induction h with
  | refl => exact World.spares_refl w
  | tail _ hstep ih => exact ih.trans hstep.spares

theorem Run.Stepping.sparing {α : Type} {body : Run σ α} (h : Stepping body) : Sparing body :=
  fun w => Session.spares_of_steps (h w)

end

namespace Connection

section Along

/-! Where a connection leads, by a relation that allows for all that is neither seen outside of it nor
takes time. -/

variable {R : World σ → World σ → Prop} (hrefl : ∀ w, R w w)
  (htrans : ∀ {w₁ w₂ w₃}, R w₁ w₂ → R w₂ w₃ → R w₁ w₃)
  (hquiet : ∀ {w w' : World σ}, w.Spares w' → w'.now = w.now → R w w')

include hquiet in
theorem along_update (f : Connection → Connection) : Along R (update f) :=
  fun _ => hquiet ⟨rfl, rfl⟩ rfl

include hrefl htrans hquiet in
theorem along_hostAddress : Along R hostAddress := by
  have along_lookUp : Along R lookUp := fun _ => hquiet ⟨rfl, rfl⟩ rfl
  refine (still_get.along hrefl).bind htrans fun w => ?_
  dsimp only
  split
  · exact (still_pure _).along hrefl
  refine (along_update hquiet _).bind htrans fun _ => along_lookUp.bind htrans fun answer => ?_
  refine (along_update hquiet _).bind htrans fun _ => ?_
  cases answer with
  | found address =>
    exact (along_update hquiet _).bind htrans fun _ => (still_pure _).along hrefl
  | unknown => exact (still_throw _).along hrefl
  | lost fault => exact (still_throw _).along hrefl

include hrefl htrans hquiet in
theorem along_closeClient (id : Nat) : Along R (Run.closeClient id) := by
  refine ((Client.still_client id).along hrefl).bind htrans fun c => ?_
  split
  · have written (s : Session) : Along R (Run.setSession c.session s) :=
      fun _ => hquiet ⟨rfl, rfl⟩ rfl
    exact ((Session.still_session _).along hrefl).bind htrans fun s => (written _).bind htrans fun _ =>
      fun _ => hquiet ⟨rfl, rfl⟩ rfl
  · exact (still_pure _).along hrefl

include hrefl htrans hquiet in
theorem along_close : Along R close := by
  refine (still_get.along hrefl).bind htrans fun w => ?_
  split
  · exact (along_closeClient hrefl htrans hquiet _).bind htrans fun _ => along_update hquiet _
  · exact (still_pure _).along hrefl

include hrefl htrans hquiet in
theorem along_getClient [Endpoint σ] (hstep : ∀ {w w' : World σ}, Session.Step w w' → R w w') :
    Along R getClient := by
  have steps {w w' : World σ} (h : Session.Steps w w') : R w w' := by
    induction h with
    | refl => exact hrefl w
    | tail _ hlast ih => exact htrans ih (hstep hlast)
  have made (host : String) (port : Int) (scheme : String) (source : CredentialSource) :
      Along R (Run.newClient host port scheme source) := fun _ => hquiet ⟨rfl, rfl⟩ rfl
  have upgraded (id : Nat) : Along R (Run.upgradeClient id) := fun _ => hquiet ⟨rfl, rfl⟩ rfl
  have held (id : Nat) : Along R (do
      update fun c => { c with client := some id, state := .connected }
      pure id) := (along_update hquiet _).bind htrans fun _ => (still_pure _).along hrefl
  have read (id : Nat) : Along R (readLaunchType id) := fun w => steps (readLaunchType_steps id w)
  refine (still_get.along hrefl).bind htrans fun w => ?_
  split
  · exact (still_pure _).along hrefl
  refine (along_hostAddress hrefl htrans hquiet).bind htrans fun host => ?_
  refine (still_get.along hrefl).bind htrans fun w => (made _ _ _ _).bind htrans fun id => ?_
  refine ((read id).tryCatch htrans fun fault => ?_).bind htrans fun launchType => ?_
  · exact (along_closeClient hrefl htrans hquiet id).bind htrans fun _ => (still_throw _).along hrefl
  dsimp only
  split
  · exact (upgraded id).bind htrans held
  · exact ((still_pure id).along hrefl).bind htrans held

end Along

theorem sparing_hostAddress : Sparing (hostAddress : Run σ String) :=
  along_hostAddress World.spares_refl (·.trans ·) (fun h _ => h)

theorem closeClient_apply (id : Nat) (w : World σ) :
    Run.closeClient id w = (.ok (), (Run.closeClient id w).2) := by
  unfold Run.closeClient
  rw [bind_of_ok (Client.client_apply id w)]
  split <;> rfl

/-- Closing never fails. -/
theorem close_apply (w : World σ) : close w = (.ok (), (close w).2) := by
  unfold close
  rw [bind_of_ok (get_apply w)]
  cases w.connection.client with
  | none => rfl
  | some id =>
    dsimp only
    rw [bind_of_ok (closeClient_apply id w)]
    rfl

theorem unheld_close (w : World σ) : (close w).2.connection.client = none := by
  unfold close
  rw [bind_of_ok (get_apply w)]
  cases hheld : w.connection.client with
  | none => exact hheld
  | some id =>
    dsimp only
    rw [bind_of_ok (closeClient_apply id w)]
    rfl

theorem andFinally_close {α : Type} (body : Run σ α) (w : World σ) :
    andFinally body close w = ((body w).1, (close (body w).2).2) := by
  rw [andFinally_apply, close_apply]
  rfl

theorem sparing_close : Sparing (close : Run σ Unit) :=
  along_close World.spares_refl (·.trans ·) (fun h _ => h)

variable [Endpoint σ]

theorem sparing_getClient : Sparing (getClient : Run σ Nat) :=
  along_getClient World.spares_refl (·.trans ·) (fun h _ => h) Session.Step.spares

end Connection

variable [Endpoint σ]

theorem Deployments.find_steps (client : Nat) (name pattern : Option String) :
    Stepping (find client name pattern : Run σ (Option String)) := by
  have listed : Stepping (names client : Run σ (List String)) :=
    (Client.executeRequired_steps client _).bind fun r =>
      (still_ofExcept _).stepping.bind fun _ => (still_pure _).stepping
  exact (still_ofExcept _).stepping.bind fun _ => listed.bind fun _ => (still_pure _).stepping

namespace DeploymentPlan

omit [Endpoint σ] in
theorem still_requireStandalone (client : Nat) : Still (requireStandalone client : Run σ Unit) := by
  refine (Client.still_client client).bind fun c => ?_
  split
  · exact still_throw _
  · exact still_pure _

theorem choose_steps (client : Nat) (type : DeploymentType) (archive : Archive)
    (pattern : Option String) :
    Stepping (choose client type archive pattern : Run σ DeploymentPlan) := by
  have found {next : Option String → Run σ DeploymentPlan} (h : ∀ existing, Stepping (next existing)) :
      Stepping (Deployments.find client (some archive.deploymentName) pattern >>= next) :=
    (Deployments.find_steps client _ _).bind h
  refine (still_requireStandalone client).stepping.bind fun _ => ?_
  cases type with
  | add => exact (still_pure _).stepping
  | deploy => exact (still_pure _).stepping
  | forceAdd =>
    refine found fun existing => ?_
    cases existing with
    | none => exact (still_pure _).stepping
    | some existing =>
      have read : Stepping (isEnabled client existing : Run σ Bool) :=
        (Client.executeRequired_steps client _).bind fun _ => (still_pure _).stepping
      exact read.bind fun _ => (still_pure _).stepping
  | forceDeploy =>
    refine found fun existing => ?_
    cases existing <;> exact (still_pure _).stepping
  | redeploy =>
    refine found fun existing => ?_
    cases existing
    · exact (still_throw _).stepping
    · exact (still_pure _).stepping
  | undeploy =>
    refine found fun existing => ?_
    cases existing
    · exact (still_throw _).stepping
    · exact (still_pure _).stepping
  | undeployIgnoreMissing =>
    refine found fun existing => ?_
    cases existing <;> exact (still_pure _).stepping

theorem execute_steps (client : Nat) (plan : DeploymentPlan) :
    Stepping (execute client plan : Run σ DeploymentResult) := by
  have uploaded : Stepping (steps client plan : Run σ (List Operation)) := by
    cases plan with
    | add archive enabled => exact (Client.upload_steps client _).bind fun _ => (still_pure _).stepping
    | replace archive existing enabled =>
      exact (Client.upload_steps client _).bind fun _ => (still_pure _).stepping
    | remove existing => exact (still_pure _).stepping
    | nothing reason => exact (still_pure _).stepping
  refine (still_requireStandalone client).stepping.bind fun _ => uploaded.bind fun ops => ?_
  split
  · exact (still_pure _).stepping
  refine (still_ofExcept _).stepping.bind fun c => (Client.execute_steps client _).bind fun r => ?_
  refine (still_ofExcept _).stepping.bind fun actions => ?_
  split
  · exact (still_throw _).stepping
  · exact (still_pure _).stepping

theorem run_steps (client : Nat) (type : DeploymentType) (archive : Archive)
    (pattern : Option String) : Stepping (run client type archive pattern : Run σ DeploymentResult) :=
  (choose_steps client type archive pattern).bind fun plan => execute_steps client plan

end DeploymentPlan

end ServerDeploy
