import ServerDeploy.Proofs.Session.Endings

/-! How uses of a connection end. Between two of them it is ready for the next, and a client that was
given out is held until it is closed. -/

namespace ServerDeploy

open Fault World Run

variable {σ : Type} {reach : Reach}

namespace Connection

theorem Sound.congr {w w' : World σ} (h : Sound w) (hclients : w'.clients = w.clients)
    (hsessions : w'.sessions = w.sessions) (hjournal : w'.journal = w.journal)
    (hconnection : w'.connection = w.connection) : Sound w' := by
  refine ⟨⟨fun id hid => ?_, ?_, ?_, ?_⟩, hconnection ▸ h.connected, hconnection ▸ h.resolved⟩
  · exact (h.holds.live id (hconnection ▸ hid)).congr hclients hsessions
  · rw [hsessions, hconnection]
    exact h.holds.opened
  · rw [hconnection, addresses, hjournal]
    exact h.holds.addresses
  · rw [hclients, hconnection]
    exact h.holds.hosts

/-- The connection is between two uses, in a predictable world. -/
structure Ready (w : World σ) : Prop where
  predictable : w.Predictable
  sound : Sound w

/-- The connection is ready and holds the client. -/
structure Holding (id : Nat) (w : World σ) : Prop extends Ready w where
  held : w.connection.client = some id

theorem steady_ready : Steady (Ready : World σ → Prop) := fun _ _ h ha =>
  ⟨steady_predictable _ _ h.predictable ha,
    h.sound.congr ha.clients ha.sessions ha.journal ha.connection⟩

theorem Holding.serves {w : World σ} {id : Nat} (h : Holding id w) : w.Serves id w :=
  .refl h.predictable (h.sound.holds.live id h.held)

theorem Holding.of_serves {w w' : World σ} {id : Nat} (h : Holding id w) (hs : w.Serves id w') :
    Holding id w' := ⟨⟨hs.predictable, h.sound.of_keeps hs.keeps⟩, hs.keeps.connection ▸ h.held⟩

/-- What serves a live client leaves the connection holding it. -/
theorem ends_holding {α : Type} {id : Nat} {body : Run σ α}
    (h : ∀ w₀ : World σ, Ends reach (w₀.Serves id) body) : Ends reach (Holding id) body :=
  ⟨fun w hw => ((h w).ended w hw.serves).mono (fun _ _ => hw.of_serves) (fun _ => hw.of_serves)
    fun _ he => he⟩

theorem ends_update (f : Connection → Connection) :
    Ends reach Predictable (update f : Run σ Unit) :=
  ends_modify_unscripted fun _ => ⟨rfl, rfl, rfl⟩

theorem leads_lookUp : Leads (In reach) Predictable (lookUp : Run σ Lookup)
    (fun answer w => w.Predictable ∧ ∀ fault, answer = .lost fault → fault.In reach) Predictable := by
  refine ⟨fun w hw => ?_⟩
  have keeps {rest : List Lookup} {count : Nat} {events : List ConnectionEvent}
      (hrest : rest ⊆ w.lookups) : World.Predictable
        { w with lookups := rest, lookupCount := count, journal := events } :=
    ⟨fun fault h => hw.lookups fault (hrest h), hw.answers, hw.downloads⟩
  have known {answer : Lookup} (hanswer : answer ∈ w.lookups) (fault : Fault)
      (h : answer = .lost fault) : fault.In reach := (hw.lookups fault (h ▸ hanswer)).of_server reach
  unfold lookUp
  rw [modifyGet_apply]
  rcases hlookups : w.lookups with _ | ⟨answer, _ | ⟨next, rest⟩⟩
  · exact ⟨keeps (List.nil_subset _), fun _ h => by cases h⟩
  · exact ⟨keeps (hlookups ▸ List.Subset.refl _), known (by simp [hlookups])⟩
  · exact ⟨keeps (by simp [hlookups]), known (by simp [hlookups])⟩

theorem ends_hostAddress : Ends reach Ready (hostAddress : Run σ String) := by
  have looked : Ends reach Predictable (hostAddress : Run σ String) := by
    refine ends_get.bind fun w => ?_
    dsimp only
    split
    · exact ends_pure _
    refine (ends_update _).bind fun _ => leads_lookUp.bind fun answer => ⟨fun w hw => ?_⟩
    refine (show Ends reach Predictable _ from (ends_update _).bind fun _ => ?_).ended w hw.1
    cases answer with
    | found address => exact (ends_update _).bind fun _ => ends_pure _
    | unknown => exact ends_fail _
    | lost fault => exact ends_throw (hw.2 fault rfl)
  exact ⟨fun w hw => ((looked.ended w hw.predictable).and (hostAddress_sound hw.sound).1).mono
    (fun _ _ h => ⟨h.1, h.2⟩) (fun _ h => ⟨h.1, h.2⟩) fun _ he => he⟩

theorem ends_closeClient (id : Nat) : Ends reach Predictable (Run.closeClient id : Run σ Unit) := by
  refine Leads.bind (ends_get.bind fun _ => ends_pure _) fun c => ?_
  split
  · refine (Session.ends_session _).bind fun s => (Session.ends_setSession _ _).bind fun _ => ?_
    exact ends_modify_unscripted fun _ => ⟨rfl, rfl, rfl⟩
  · exact ends_pure _

theorem ends_newClient (host : String) (port : Int) (scheme : String) (source : CredentialSource) :
    Ends reach Predictable (Run.newClient host port scheme source : Run σ Nat) :=
  ⟨fun _ hw => hw.congr rfl rfl rfl⟩

theorem ends_upgradeClient (id : Nat) : Ends reach Predictable (Run.upgradeClient id : Run σ Nat) :=
  ⟨fun _ hw => hw.congr rfl rfl rfl⟩

variable [Endpoint σ]

theorem ends_close : Ends reach Ready (close : Run σ Unit) := by
  have closed : Ends reach Predictable (close : Run σ Unit) := by
    refine ends_get.bind fun w => ?_
    split
    · exact (ends_closeClient _).bind fun _ => ends_update _
    · exact ends_pure _
  exact ⟨fun w hw => ((closed.ended w hw.predictable).and (Use.effect_sound hw.sound .close)).mono
    (fun _ _ h => ⟨h.1, h.2⟩) (fun _ h => ⟨h.1, h.2⟩) fun _ he => he⟩

theorem ends_readLaunchType (w₀ : World σ) (id : Nat) :
    Ends .server (w₀.Serves id) (readLaunchType id : Run σ String) :=
  ends_withRetry (steady_serves w₀ id) _ <|
    (Client.ends_executeRequired w₀ id _).bind fun _ => ends_pure _

/-- The client of the connection is held from when it is given out. -/
theorem leads_getClient :
    Leads (In .server) Ready (getClient : Run σ Nat) (fun id => Holding id) Ready := by
  have given (w : World σ) (hw : Ready w) : Ended (In .server)
      (fun id w => w.Predictable ∧ w.connection.client = some id) Predictable (getClient w) := by
    cases hheld : w.connection.client with
    | some id =>
      rw [getClient_of_held hheld]
      exact ⟨hw.predictable, hheld⟩
    | none =>
      obtain ⟨-, hclient, haddress⟩ := hostAddress_sound hw.sound
      have hended := Leads.ended (E := In .server) ends_hostAddress w hw
      unfold getClient
      rw [bind_of_ok (get_apply w), hheld]
      dsimp only
      rw [bind_apply]
      rcases hb : hostAddress w with ⟨e | host, w₁⟩
      · rw [hb] at hended
        exact ⟨hended.1.predictable, hended.2⟩
      rw [hb, hheld] at hclient
      rw [hb] at hended haddress
      have hholds : w₁.Holds none := by
        have hholds := hended.sound.holds
        rwa [show w₁.connection.client = none from hclient] at hholds
      obtain ⟨id, w₂, hnew, hholds, -⟩ := newClient_holds hholds (haddress host rfl)
        w₁.connection.port "http" w₁.connection.source
      have hnewly := Leads.ended (E := In .server)
        (ends_newClient host w₁.connection.port "http" w₁.connection.source) w₁ hended.predictable
      rw [hnew] at hnewly
      dsimp only
      rw [bind_of_ok (get_apply w₁), bind_of_ok hnew]
      -- the new client is live while the launch type is read
      refine (show Leads (In .server) (w₂.Serves id) _ _ _ from ?_).ended w₂
        (.refl hnewly (hholds.live id rfl))
      refine (Leads.catch (ends_readLaunchType w₂ id) fun e he => ?_).bind fun launchType => ?_
      · exact ((ends_closeClient id).under fun _ h => h.predictable).bind fun _ => leads_throw he
      have connected (id : Nat) : Leads (In .server) Predictable (do
          update fun c => { c with client := some id, state := .connected }
          pure id : Run σ Nat)
          (fun id w => w.Predictable ∧ w.connection.client = some id) Predictable :=
        ⟨fun _ hw => ⟨hw.congr rfl rfl rfl, rfl⟩⟩
      refine Leads.under ?_ fun _ h => h.predictable
      split
      · exact (ends_upgradeClient id).bind connected
      · exact connected id
  exact ⟨fun w hw => ((given w hw).and (getClient_sound hw.sound)).mono
    (fun _ _ h => ⟨⟨h.1.1, h.2⟩, h.1.2⟩) (fun _ h => ⟨h.1, h.2⟩) fun _ he => he⟩

/-- What is done with the client that is given out serves it. -/
theorem ends_getClient_then {α : Type} {next : Nat → Run σ α}
    (h : ∀ id, Ends .server (Holding id) (next id)) : Ends .server Ready (getClient >>= next) :=
  Leads.bind leads_getClient fun id => (h id).mono (fun _ _ h => h.toReady) fun _ h => h.toReady

theorem ends_checkPreconditions (ifExists ifNotExists : Option String) :
    Ends .server Ready (checkPreconditions ifExists ifNotExists : Run σ Bool) := by
  have looked (id : Nat) (address : String) :
      Ends .server (Holding id) (resourceExists id address : Run σ Bool) := by
    unfold resourceExists
    split
    · exact ends_fail _
    · exact ends_holding fun w₀ => (Existence.ends_check w₀ id _).bind fun _ => ends_pure _
  unfold checkPreconditions
  refine ends_guard trivial ?_
  split
  · exact ends_pure _
  refine ends_getClient_then fun id => (ends_get.bind fun _ => ends_pure _).bind fun c => ?_
  split
  · exact ends_pure _
  split
  · exact looked id _
  · exact (looked id _).bind fun _ => ends_pure _

end Connection

end ServerDeploy
