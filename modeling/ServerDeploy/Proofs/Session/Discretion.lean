import ServerDeploy.Goal.Basic
import ServerDeploy.Proofs.Session.Journal
import ServerDeploy.Proofs.Session.Lifetime

/-! The discretion of a connection. Each session knows of challenges and credentials only what its journal
shows, and the credentials that were found are remembered for the sessions to come. -/

namespace ServerDeploy

open Session ConnectionEvent

variable {σ : Type}

namespace World

/-- What sessions and memory say agrees with the journal, which is discreet. -/
structure Discreet (w : World σ) : Prop where
  source : w.connection.source.isLookup = true
  sources : ∀ source ∈ w.sessions.map Session.source, source.isLookup = true
  challenged : ∀ id, (w.sessionAt id).challenged = true → Challenged id w.journal
  digest : ∀ id, .found id ∈ w.journal → (w.sessionAt id).digest ≠ none
  remembered : ∀ id, .found id ∈ w.journal → w.remembered.isSome = true
  journal : ServerDeploy.Discreet w.journal
  requests : w.requests = w.journal.filterMap request?

theorem Discreet.unfound {w : World σ} (h : w.Discreet) {id : Nat}
    (hd : (w.sessionAt id).digest = none) : .found id ∉ w.journal := fun hf => h.digest id hf hd

end World

theorem Session.Challenged.append {id : Nat} {journal : List ConnectionEvent} (h : Challenged id journal)
    (more : List ConnectionEvent) : Challenged id (journal ++ more) := by
  obtain ⟨request, hmem⟩ := h
  exact ⟨request, List.mem_append_left more hmem⟩

/-- The consultations of one call, of which none has had success before. -/
theorem Discreet.consulting {journal : List ConnectionEvent} {id : Nat} {is : List Informant}
    (before : List Informant) (h : Discreet journal) (hasking : Asking id before journal)
    (hnodup : (before ++ is).Nodup) (hunfound : is ≠ [] → ∀ other, .found other ∉ journal) :
    Discreet (journal ++ is.map ConnectionEvent.consulted) := by
  induction is generalizing journal before with
  | nil => simpa using h
  | cons i is ih =>
    have hnone := hunfound (by simp)
    have hout : i ∉ before := fun hin =>
      (List.nodup_append.mp hnodup).2.2 i hin i List.mem_cons_self rfl
    have hlast : Discreet (journal ++ [.consulted i]) := h.concat ⟨hnone, id, before, hasking, hout⟩
    obtain ⟨past, rfl⟩ := hasking
    rw [List.map_cons, List.append_cons]
    refine ih (before ++ [i]) hlast ⟨past, by simp⟩ (by simpa using hnodup)
      fun _ other hmem => hnone other ?_
    simpa using hmem

variable [Endpoint σ]

theorem Session.Step.discreet {w w' : World σ} (h : w.Discreet) (hstep : Step w w') : w'.Discreet := by
  have hkeeps := hstep.keeps
  have hsource : w'.connection.source.isLookup = true := hkeeps.connection ▸ h.source
  have hsources : ∀ source ∈ w'.sessions.map Session.source, source.isLookup = true :=
    hkeeps.source ▸ h.sources
  cases hstep with
  | @exchange id request hc =>
    refine ⟨hsource, hsources, fun other hother => ?_, fun other hmem => ?_, fun other hmem => ?_, ?_, ?_⟩
    · exact (h.challenged other hother).append _
    · exact h.digest other (by simpa [World.exchanging] using hmem)
    · exact h.remembered other (by simpa [World.exchanging] using hmem)
    · exact h.journal.concat fun huser => h.challenged id (hc huser)
    · simp [World.exchanging, h.requests, request?]
  | @challenge id hc =>
    refine ⟨hsource, hsources, fun other hother => ?_, fun other hmem hnone => ?_, h.remembered,
      h.journal, h.requests⟩
    · rcases w.sessionAt_withSession_cases id _ other with hkept | ⟨rfl, -⟩
      · exact h.challenged other (hkept ▸ hother)
      · exact hc
    · refine h.digest other hmem ?_
      rcases w.sessionAt_withSession_cases id _ other with hkept | ⟨rfl, hself⟩
      · exact hkept ▸ hnone
      · rw [hself] at hnone
        exact hnone
  | @ask _ id is hr hd hchanges =>
    have hsessions (other : Nat) : w'.sessionAt other = w.sessionAt other :=
      World.sessionAt_of_sessions hchanges.sessions other
    have hjournal : w'.journal = (w.journal ++ [.asked id]) ++ is.map ConnectionEvent.consulted :=
      hchanges.journal
    have hmem_iff (other : Nat) : ConnectionEvent.found other ∈ w'.journal ↔
        ConnectionEvent.found other ∈ w.journal := by
      simp [hjournal]
    refine ⟨hsource, hsources, fun other hother => ?_, fun other hmem => ?_, fun other hmem => ?_, ?_, ?_⟩
    · rw [hsessions] at hother
      rw [hjournal, List.append_assoc]
      exact (h.challenged other hother).append _
    · rw [hsessions]
      exact h.digest other ((hmem_iff other).mp hmem)
    · have hremembered := h.remembered other ((hmem_iff other).mp hmem)
      rwa [(hchanges.remembered hremembered).2]
    · rw [hjournal]
      have hasked := h.journal.concat (e := .asked id) ⟨hr, h.unfound hd⟩
      have hnodup : is.Nodup := hchanges.consulted.nodup (by decide)
      -- with credentials in mind nobody is consulted, so whoever is consulted finds the first
      refine hasked.consulting [] ⟨w.journal, rfl⟩ hnodup fun hne other hmem => ?_
      have hremembered := h.remembered other (by simpa using hmem)
      exact hne (hchanges.remembered hremembered).1
    · rw [hjournal, show w'.requests = w.requests by rw [hchanges.world]; rfl, h.requests]
      simp [request?]
  | @grant id c is ha hopen hs =>
    have hmade : (w.sessionAt id).source ∈ w.sessions.map Session.source := by
      refine List.mem_map_of_mem ?_
      simp [World.sessionAt, List.getElem?_eq_getElem (World.lt_of_isOpen hopen)]
    refine ⟨hsource, hsources, fun other hother => ?_, fun other hmem hnone => ?_,
      fun _ _ => hs (h.sources _ hmade), h.journal.concat ⟨is, ha⟩, ?_⟩
    · refine (h.challenged other ?_).append _
      rcases w.sessionAt_withSession_cases id _ other with hkept | ⟨rfl, hself⟩
      · exact hkept ▸ hother
      · exact (congrArg Session.challenged hself).symm.trans hother
    · rw [World.sessionAt_noting] at hnone
      by_cases hid : other = id
      · subst hid
        rw [World.sessionAt_withSession hopen] at hnone
        cases hnone
      · rcases w.sessionAt_withSession_cases id _ other with hkept | ⟨rfl, -⟩
        · refine h.digest other ?_ (hkept ▸ hnone)
          simpa [World.noting, World.withSession, hid] using hmem
        · exact hid rfl
    · simp [World.noting, World.withSession, h.requests, request?]
  | wait milliseconds =>
    exact ⟨h.source, h.sources, h.challenged, h.digest, h.remembered, h.journal, h.requests⟩

namespace Run

variable {α β : Type}

def Discreet (body : Run σ α) : Prop := ∀ w : World σ, w.Discreet → (body w).2.Discreet

theorem Stepping.discreet {body : Run σ α} (h : Stepping body) : Discreet body := by
  intro w hw
  have discreet {w' : World σ} (hsteps : Steps w w') : w'.Discreet := by
    induction hsteps with
    | refl => exact hw
    | tail _ hstep ih => exact hstep.discreet ih
  exact discreet (h w)

omit [Endpoint σ] in
theorem Discreet.bind {body : Run σ α} {next : α → Run σ β} (h : Discreet body)
    (hnext : ∀ v, Discreet (next v)) : Discreet (body >>= next) :=
  related_bind (R := fun w w' => w.Discreet → w'.Discreet) (fun h h' hw => h' (h hw)) h hnext

omit [Endpoint σ] in
theorem Discreet.tryCatch {body : Run σ α} {handler : Fault → Run σ α} (h : Discreet body)
    (hh : ∀ e, Discreet (handler e)) : Discreet (tryCatch body handler) :=
  related_tryCatch (R := fun w w' => w.Discreet → w'.Discreet) (fun h h' hw => h' (h hw)) h hh

omit [Endpoint σ] in
/-- What is done with the world as it stands may count on its discretion. -/
theorem discreet_get_bind {next : World σ → Run σ β} (h : ∀ v : World σ, v.Discreet → Discreet (next v)) :
    Discreet ((get : Run σ (World σ)) >>= next) := by
  intro w hw
  rw [bind_of_ok (get_apply w)]
  exact h w hw w hw

end Run

namespace Connection

omit [Endpoint σ] in
theorem discreet_update {f : Connection → Connection} (hf : ∀ c, (f c).source = c.source) :
    Run.Discreet (update f : Run σ Unit) := fun w h =>
  ⟨(congrArg CredentialSource.isLookup (hf w.connection)).trans h.source, h.sources, h.challenged,
    h.digest, h.remembered, h.journal, h.requests⟩

omit [Endpoint σ] in
theorem discreet_lookUp : Run.Discreet (lookUp : Run σ Lookup) := by
  intro w h
  obtain ⟨answer, rest, hlookup⟩ := lookUp_apply w
  rw [hlookup]
  refine ⟨h.source, h.sources, fun id hid => (h.challenged id hid).append _, fun id hmem => ?_,
    fun id hmem => ?_, h.journal.concat trivial, ?_⟩
  · exact h.digest id (by simpa using hmem)
  · exact h.remembered id (by simpa using hmem)
  · simp [h.requests, request?]

theorem discreet_hostAddress : Run.Discreet (hostAddress : Run σ String) := by
  refine Run.discreet_get_bind fun v _ => ?_
  dsimp only
  split
  · exact (Run.still_pure _).stepping.discreet
  · refine Run.Discreet.bind (discreet_update fun _ => rfl) fun _ =>
      Run.Discreet.bind discreet_lookUp fun answer => ?_
    refine Run.Discreet.bind (discreet_update fun _ => rfl) fun _ => ?_
    cases answer with
    | found address =>
      exact Run.Discreet.bind (discreet_update fun _ => rfl) fun _ =>
        (Run.still_pure _).stepping.discreet
    | unknown => exact (Run.still_throw _).stepping.discreet
    | lost fault => exact (Run.still_throw _).stepping.discreet

omit [Endpoint σ] in
/-- A client that is made or closed knows no more than before. -/
theorem discreet_of_sessions {w : World σ} (h : w.Discreet) {w' : World σ} (clients : List Client)
    (hw' : w' = { w with sessions := w'.sessions, clients := clients })
    (hsources : ∀ source ∈ w'.sessions.map Session.source, source.isLookup = true)
    (hknown : ∀ id, (w'.sessionAt id).challenged = (w.sessionAt id).challenged ∧
      (w'.sessionAt id).digest = (w.sessionAt id).digest) : w'.Discreet := by
  have hjournal : w'.journal = w.journal := by rw [hw']
  refine ⟨?_, hsources, fun id hid => ?_, fun id hmem => ?_, fun id hmem => ?_, ?_, ?_⟩
  · rw [hw']
    exact h.source
  · rw [hjournal]
    exact h.challenged id ((hknown id).1 ▸ hid)
  · rw [(hknown id).2]
    exact h.digest id (hjournal ▸ hmem)
  · rw [hw']
    exact h.remembered id (hjournal ▸ hmem)
  · rw [hjournal]
    exact h.journal
  · rw [hw']
    exact h.requests

omit [Endpoint σ] in
theorem discreet_newClient {source : CredentialSource} (hsource : source.isLookup = true)
    (host : String) (port : Int) (scheme : String) :
    Run.Discreet (Run.newClient host port scheme source : Run σ Nat) := by
  intro w h
  have hmade : ∃ clients, (Run.newClient host port scheme source w).2 =
      { w with sessions := w.sessions ++ [⟨true, source, none, false⟩], clients := clients } := ⟨_, rfl⟩
  obtain ⟨clients, hmade⟩ := hmade
  rw [hmade]
  refine discreet_of_sessions h clients rfl ?_ fun id => ?_
  · intro other hother
    obtain hother | rfl : other ∈ w.sessions.map Session.source ∨ other = source := by
      rw [List.map_append, List.mem_append] at hother
      simpa using hother
    · exact h.sources other hother
    · exact hsource
  · unfold World.sessionAt
    dsimp only
    rcases Nat.lt_trichotomy id w.sessions.length with hid | rfl | hid
    · rw [List.getElem?_append_left hid]
      exact ⟨rfl, rfl⟩
    · rw [List.getElem?_concat_length, List.getElem?_eq_none (Nat.le_refl _)]
      exact ⟨rfl, rfl⟩
    · rw [List.getElem?_eq_none (by simp; omega), List.getElem?_eq_none (by omega)]
      exact ⟨rfl, rfl⟩

omit [Endpoint σ] in
theorem discreet_closeClient (id : Nat) : Run.Discreet (Run.closeClient id : Run σ Unit) := by
  intro w h
  unfold Run.closeClient
  rw [Run.bind_of_ok (Client.client_apply id w)]
  split
  · have shut {α : Type} (f : Session → α)
        (hf : ∀ s : Session, f { s with isOpen := false } = f s) :
        (w.withSession (w.clientAt id).session
          { w.sessionAt (w.clientAt id).session with isOpen := false }).sessions.map f =
            w.sessions.map f := World.map_withSession f w (hf _)
    refine discreet_of_sessions h _ rfl ?_ fun other => ⟨?_, ?_⟩
    · exact fun source hsource => h.sources source (shut Session.source (fun _ => rfl) ▸ hsource)
    · exact World.sessionAt_congr (shut Session.challenged fun _ => rfl) other
    · exact World.sessionAt_congr (shut Session.digest fun _ => rfl) other
  · exact h

omit [Endpoint σ] in
theorem discreet_upgradeClient (id : Nat) : Run.Discreet (Run.upgradeClient id : Run σ Nat) :=
  fun _ h => ⟨h.source, h.sources, h.challenged, h.digest, h.remembered, h.journal, h.requests⟩

theorem discreet_getClient : Run.Discreet (getClient : Run σ Nat) := by
  have held (id : Nat) : Run.Discreet (do
      update fun c => { c with client := some id, state := .connected }
      pure id : Run σ Nat) :=
    Run.Discreet.bind (discreet_update fun _ => rfl) fun _ => (Run.still_pure _).stepping.discreet
  refine Run.discreet_get_bind fun v _ => ?_
  split
  · exact (Run.still_pure _).stepping.discreet
  refine Run.Discreet.bind discreet_hostAddress fun host => Run.discreet_get_bind fun v hv => ?_
  refine (discreet_newClient hv.source host _ _).bind fun id => ?_
  refine Run.Discreet.bind (Run.Discreet.tryCatch (readLaunchType_steps id).discreet fun fault => ?_)
    fun launchType => ?_
  · exact (discreet_closeClient id).bind fun _ => (Run.still_throw _).stepping.discreet
  · dsimp only
    split
    · exact (discreet_upgradeClient id).bind held
    · exact (Run.still_pure id).stepping.discreet.bind held

theorem discreet_close : Run.Discreet (close : Run σ Unit) := by
  refine Run.discreet_get_bind fun v _ => ?_
  split
  · exact (discreet_closeClient _).bind fun _ => discreet_update fun _ => rfl
  · exact (Run.still_pure _).stepping.discreet

theorem Use.effect_discreet {w : World σ} (h : w.Discreet) (use : Use) : (use.effect w).Discreet := by
  cases use with
  | hostAddress => exact discreet_hostAddress w h
  | getClient => exact discreet_getClient w h
  | isDomainServer =>
    exact Run.Discreet.bind discreet_getClient (fun id => (stepping_isDomain id).discreet) w h
  | checkPreconditions ifExists ifNotExists =>
    dsimp only [effect]
    rcases checkPreconditions_cases ifExists ifNotExists w with hw | ⟨next, hnext, hw⟩
    · rwa [hw]
    · rw [hw]
      exact Run.Discreet.bind discreet_getClient (fun id => (hnext id).discreet) w h
  | execute client op => exact (Client.execute_steps client op).discreet w h
  | upload client path => exact (Client.upload_steps client path).discreet w h
  | close => exact discreet_close w h

theorem discreet_after {w : World σ} (h : w.Discreet) (uses : List Use) : (after w uses).Discreet := by
  induction uses generalizing w with
  | nil => exact h
  | cons use uses ih => exact ih (use.effect_discreet h)

end Connection

namespace Goal

omit [Endpoint σ] in
theorem discreet_connect {w : World σ} (hw : w.Unused) (settings : ConnectionSettings) :
    (connect settings w).2.Discreet := by
  have hconnect : (connect settings w).2 = { w with remembered := none }.connectingTo
      settings.hostname settings.port (.lookup settings.user settings.password settings.serverId
        settings.settingsFile) := rfl
  rw [hconnect]
  refine ⟨rfl, ?_, fun id hid => ?_, ?_, ?_, ?_, ?_⟩
  · simp [World.connectingTo, hw.sessions]
  · simp [World.connectingTo, World.sessionAt, hw.sessions] at hid
    cases hid
  · simp [World.connectingTo, hw.journal]
  · simp [World.connectingTo, hw.journal]
  · simpa [World.connectingTo, hw.journal] using Discreet.nil
  · simp [World.connectingTo, hw.journal, hw.requests]

open Connection

/-- Whatever the connection of a goal is used for and whatever comes back, its credentials are kept
confidential, and the journal that shows it has all requests that were sent. -/
theorem confidential_after {w : World σ} (hw : w.Unused) (settings : ConnectionSettings)
    (uses : List Use) :
    (after (connect settings w).2 uses).requests =
        (after (connect settings w).2 uses).journal.filterMap request? ∧
      Confidential (after (connect settings w).2 uses).journal := by
  have h := discreet_after (discreet_connect hw settings) uses
  exact ⟨h.requests, h.journal.confidential⟩

/-- A server that asks for credentials again and again, through a reconnect. -/
theorem confidential_of_challenges :
    let w := after (connect ⟨"localhost", 9990, some "admin", none, none, none, .whole 60, none, none⟩
      (World.quiet (List.replicate 9 .challenge : Script) (.ofText "/work") (.ofText "/home"))).2
      [.getClient, .getClient, .close, .getClient]
    w.requests = w.journal.filterMap request? ∧ Confidential w.journal :=
  confidential_after (World.unused_quiet _ _ _) _ _

end Goal

end ServerDeploy
