import ServerDeploy.Proofs.Session.Steps

/-! The life of a connection. However its uses end, it holds a client exactly while it is connected, one
session is open exactly then, and its host is found at most once. -/

namespace ServerDeploy

variable {σ : Type}

namespace World

/-- Nothing was made or sent in the world so far. -/
structure Unused (w : World σ) : Prop where
  sessions : w.sessions = []
  clients : w.clients = []
  requests : w.requests = []
  journal : w.journal = []

theorem unused_quiet (endpoint : σ) (directory home : Path) :
    (quiet endpoint directory home).Unused := ⟨rfl, rfl, rfl, rfl⟩

/-- The world with a connection that was not used yet. -/
def connectingTo (w : World σ) (hostname : String) (port : Int) (source : CredentialSource) :
    World σ :=
  { w with connection := ⟨hostname, port, source, none, none, .unresolved⟩ }

structure Live (w : World σ) (id : Nat) : Prop where
  made : id < w.clients.length
  isClosed : (w.clientAt id).isClosed = false
  isOpen : (w.sessionAt (w.clientAt id).session).isOpen = true

theorem Live.congr {w w' : World σ} {id : Nat} (h : w.Live id) (hclients : w'.clients = w.clients)
    (hsessions : w'.sessions = w.sessions) : w'.Live id := by
  have hclient := clientAt_of_clients hclients id
  refine ⟨hclients ▸ h.made, hclient ▸ h.isClosed, ?_⟩
  rw [hclient, sessionAt, hsessions]
  exact h.isOpen

theorem Live.of_keeps {w w' : World σ} {id : Nat} (h : w.Live id) (hk : w.Keeps w') : w'.Live id := by
  have hclient := clientAt_of_clients hk.clients id
  refine ⟨hk.clients ▸ h.made, hclient ▸ h.isClosed, ?_⟩
  rw [hclient, hk.isOpen_eq]
  exact h.isOpen

/-- At most one client is live, no other session is open, and all clients are for the one address that
was found. -/
structure Holds (w : World σ) (held : Option Nat) : Prop where
  live : ∀ id, held = some id → w.Live id
  opened : w.sessions.countP (·.isOpen) = if held.isSome then 1 else 0
  addresses : w.addresses = w.connection.address.toList
  hosts : ∀ c ∈ w.clients, w.connection.address = some c.host

theorem Holds.of_keeps {w w' : World σ} {held : Option Nat} (h : w.Holds held) (hk : w.Keeps w') :
    w'.Holds held where
  live id hid := (h.live id hid).of_keeps hk
  opened := by
    have count (l : List Session) : l.countP (·.isOpen) = (l.map Session.isOpen).countP id := by
      rw [List.countP_map]
      rfl
    rw [count, hk.isOpen, ← count]
    exact h.opened
  addresses := by rw [hk.addresses, hk.connection, h.addresses]
  hosts := by
    rw [hk.clients, hk.connection]
    exact h.hosts

end World

namespace Connection

open World

/-- The connection is between two uses. -/
structure Sound (w : World σ) : Prop where
  holds : w.Holds w.connection.client
  connected : w.connection.state = .connected ↔ w.connection.client.isSome = true
  resolved : w.connection.state ≠ .resolvingHost

theorem Sound.of_keeps {w w' : World σ} (h : Sound w) (hk : w.Keeps w') : Sound w' := by
  refine ⟨?_, hk.connection ▸ h.connected, hk.connection ▸ h.resolved⟩
  rw [hk.connection]
  exact h.holds.of_keeps hk

theorem sound_connectingTo {w : World σ} (hw : w.Unused) (hostname : String) (port : Int)
    (source : CredentialSource) : Sound (w.connectingTo hostname port source) := by
  refine ⟨⟨nofun, ?_, ?_, ?_⟩, by simp [connectingTo], by simp [connectingTo]⟩
  · simp [connectingTo, hw.sessions]
  · simp [connectingTo, addresses, hw.journal]
  · simp [connectingTo, hw.clients]

theorem lookUp_apply (w : World σ) : ∃ answer rest, lookUp w = (.ok answer, { w with
    lookups := rest
    lookupCount := w.lookupCount + 1
    journal := w.journal ++ [.lookedUp answer] }) := ⟨_, _, rfl⟩

theorem hostAddress_of_address {w : World σ} {address : String}
    (h : w.connection.address = some address) : hostAddress w = (.ok address, w) := by
  unfold hostAddress
  rw [Run.bind_of_ok (Run.get_apply w), h]
  rfl

/-- Looking the host up leaves the connection between two uses, with the address if there is one. -/
theorem hostAddress_sound {w : World σ} (h : Sound w) : Sound (hostAddress w).2 ∧
    (hostAddress w).2.connection.client = w.connection.client ∧
    ∀ address, (hostAddress w).1 = .ok address →
      (hostAddress w).2.connection.address = some address := by
  cases haddress : w.connection.address with
  | some address =>
    rw [hostAddress_of_address haddress]
    exact ⟨h, rfl, fun a ha => by cases ha; exact haddress⟩
  | none =>
    have hnone : w.clients = [] := by
      refine List.eq_nil_iff_forall_not_mem.mpr fun c hc => ?_
      have hhost := h.holds.hosts c hc
      rw [haddress] at hhost
      cases hhost
    have hunfound : w.addresses = [] := by rw [h.holds.addresses, haddress]; rfl
    obtain ⟨answer, rest, hlookup⟩ :=
      lookUp_apply { w with connection := { w.connection with state := .resolvingHost } }
    unfold hostAddress
    rw [Run.bind_of_ok (Run.get_apply w), haddress]
    dsimp only [update]
    rw [Run.bind_of_ok (Run.modify_apply _ _), Run.bind_of_ok hlookup,
      Run.bind_of_ok (Run.modify_apply _ _)]
    -- only an address that was found is kept; a lookup that failed leaves things as they were
    have unfound (e : ConnectionEvent) (he : e.address? = none) (lookups : List Lookup) (count : Nat) :
        Sound { w with
          lookups := lookups, lookupCount := count, journal := w.journal ++ [e] } := by
      refine ⟨⟨fun id hid => (h.holds.live id hid).congr rfl rfl, h.holds.opened, ?_, h.holds.hosts⟩,
        h.connected, h.resolved⟩
      rw [← h.holds.addresses]
      simp [addresses, he]
    cases answer with
    | found address =>
      dsimp only
      rw [Run.bind_of_ok (Run.modify_apply _ _)]
      refine ⟨⟨⟨fun id hid => (h.holds.live id hid).congr rfl rfl, h.holds.opened, ?_, ?_⟩,
        h.connected, h.resolved⟩, rfl, ?_⟩
      · have hjournal : List.filterMap ConnectionEvent.address? w.journal = [] := hunfound
        simp [addresses, hjournal, ConnectionEvent.address?]
      · simp [hnone]
      · rintro _ ⟨⟩
        rfl
    | unknown => exact ⟨unfound _ rfl _ _, rfl, fun _ h => by cases h⟩
    | lost fault => exact ⟨unfound _ rfl _ _, rfl, fun _ h => by cases h⟩

theorem newClient_holds {w : World σ} {host : String} (h : w.Holds none)
    (haddress : w.connection.address = some host) (port : Int) (scheme : String)
    (source : CredentialSource) :
    ∃ id w', Run.newClient host port scheme source w = (.ok id, w') ∧ w'.Holds (some id) ∧
      w'.connection = w.connection := by
  refine ⟨_, _, rfl, ⟨?_, ?_, h.addresses, ?_⟩, rfl⟩
  · rintro _ ⟨⟩
    refine ⟨by simp, ?_, ?_⟩
    · simp [clientAt]
    · simp [clientAt, sessionAt]
  · have hopened := h.opened
    simpa using hopened
  · intro c hc
    rcases List.mem_append.mp hc with hc | hc
    · exact h.hosts c hc
    · obtain rfl := List.mem_singleton.mp hc
      exact haddress

/-- Closing the live client closes its session, and no word is sent. -/
theorem closeClient_holds {w : World σ} {id : Nat} (h : w.Holds (some id)) :
    ∃ w', Run.closeClient id w = (.ok (), w') ∧ w'.Holds none ∧ w'.connection = w.connection ∧
      w'.endpoint = w.endpoint ∧ w'.requests = w.requests := by
  have hlive := h.live id rfl
  have hcount := h.opened
  unfold Run.closeClient
  rw [Run.bind_of_ok (Client.client_apply id w), if_pos (by simp [hlive.isClosed])]
  refine ⟨_, rfl, ⟨nofun, ?_, h.addresses, ?_⟩, rfl, rfl, rfl⟩
  · have hlength := lt_of_isOpen hlive.isOpen
    have hget : w.sessions[(w.clientAt id).session] = w.sessionAt (w.clientAt id).session := by
      simp [sessionAt, List.getElem?_eq_getElem hlength]
    rw [Option.isSome_some, if_pos rfl] at hcount
    simp [List.countP_set hlength, hget, hlive.isOpen, hcount]
  · intro c hc
    rcases List.mem_or_eq_of_mem_set hc with hc | rfl
    · exact h.hosts c hc
    · refine h.hosts (w.clientAt id) ?_
      simp [clientAt, List.getElem?_eq_getElem hlive.made]

theorem Sound.of_unheld {w w' : World σ} (h : Sound w) (hclient : w.connection.client = none)
    (hholds : w'.Holds none) (hconnection : w'.connection = w.connection) : Sound w' := by
  refine ⟨?_, hconnection ▸ h.connected, hconnection ▸ h.resolved⟩
  rwa [hconnection, hclient]

theorem upgradeClient_holds {w : World σ} {id : Nat} (h : w.Holds (some id)) :
    ∃ id' w', Run.upgradeClient id w = (.ok id', w') ∧ w'.Holds (some id') ∧
      w'.connection = w.connection := by
  have hlive := h.live id rfl
  refine ⟨_, _, rfl, ⟨?_, h.opened, h.addresses, ?_⟩, rfl⟩
  · rintro _ ⟨⟩
    refine ⟨by simp, by simp [clientAt], ?_⟩
    have hopen := hlive.isOpen
    simpa [clientAt, sessionAt] using hopen
  · intro c hc
    rcases List.mem_append.mp hc with hc | hc
    · exact h.hosts c hc
    · obtain rfl := List.mem_singleton.mp hc
      refine h.hosts (w.clientAt id) ?_
      simp [clientAt, List.getElem?_eq_getElem hlive.made]

theorem sound_of_holds {w : World σ} {id : Nat} (h : w.Holds (some id)) :
    Sound { w with connection := { w.connection with client := some id, state := .connected } } :=
  ⟨⟨fun id hid => (h.live id hid).congr rfl rfl, h.opened, h.addresses, h.hosts⟩, by simp, by simp⟩

variable [Endpoint σ]

theorem getClient_of_held {w : World σ} {id : Nat} (h : w.connection.client = some id) :
    getClient w = (.ok id, w) := by
  unfold getClient
  rw [Run.bind_of_ok (Run.get_apply w), h]
  rfl

theorem getClient_sound {w : World σ} (h : Sound w) : Sound (getClient w).2 := by
  cases hheld : w.connection.client with
  | some id =>
    rw [getClient_of_held hheld]
    exact h
  | none =>
    obtain ⟨hfound, hclient, haddress⟩ := hostAddress_sound h
    unfold getClient
    rw [Run.bind_of_ok (Run.get_apply w), hheld]
    dsimp only
    rw [Run.bind_apply]
    rcases hb : hostAddress w with ⟨e | host, w₁⟩
    · rw [hb] at hfound
      exact hfound
    rw [hb, hheld] at hclient
    rw [hb] at hfound haddress
    have hnone : w₁.Holds none := by
      have hholds := hfound.holds
      rwa [show w₁.connection.client = none from hclient] at hholds
    obtain ⟨id, w₂, hnew, hholds, hconnection⟩ := newClient_holds hnone (haddress host rfl)
      w₁.connection.port "http" w₁.connection.source
    -- the new client is live while the launch type is read, and closed when that fails
    dsimp only
    rw [Run.bind_of_ok (Run.get_apply w₁), Run.bind_of_ok hnew, Run.bind_apply, Run.tryCatch_apply]
    have hread := Session.keeps_of_steps (readLaunchType_steps id w₂)
    rcases hb₁ : readLaunchType id w₂ with ⟨e | launchType, w₃⟩
    · rw [hb₁] at hread
      obtain ⟨w₄, hclose, hclosed, hunchanged, -, -⟩ := closeClient_holds (hholds.of_keeps hread)
      dsimp only
      rw [Run.bind_of_ok hclose]
      exact hfound.of_unheld hclient hclosed
        (hunchanged.trans (hread.connection.trans hconnection))
    · rw [hb₁] at hread
      dsimp only
      split
      · obtain ⟨id', w₄, hupgrade, hholds', -⟩ := upgradeClient_holds (hholds.of_keeps hread)
        rw [Run.bind_of_ok hupgrade]
        exact sound_of_holds hholds'
      · exact sound_of_holds (hholds.of_keeps hread)

/-- What is done with a client after it was given out leaves the connection between two uses. -/
theorem Sound.client_then {α : Type} {w : World σ} (h : Sound w) {next : Nat → Run σ α}
    (hnext : ∀ id, Run.Stepping (next id)) : Sound ((getClient >>= next) w).2 := by
  have hclient := getClient_sound h
  rw [Run.bind_apply]
  rcases hb : getClient w with ⟨e | id, w₁⟩
  · rw [hb] at hclient
    exact hclient
  · rw [hb] at hclient
    exact hclient.of_keeps (Session.keeps_of_steps (hnext id w₁))

theorem stepping_isDomain (id : Nat) :
    Run.Stepping (do pure (← Run.client id).isDomain : Run σ Bool) :=
  ((Client.still_client id).bind fun _ => Run.still_pure _).stepping

/-- Preconditions need no client, or are checked with the client of the connection. -/
theorem checkPreconditions_cases (ifExists ifNotExists : Option String) (w : World σ) :
    (checkPreconditions ifExists ifNotExists w).2 = w ∨
      ∃ next : Nat → Run σ Bool, (∀ id, Run.Stepping (next id)) ∧
        checkPreconditions ifExists ifNotExists w = (getClient >>= next) w := by
  unfold checkPreconditions
  split
  · exact .inl rfl
  dsimp only
  split
  · exact .inl rfl
  refine .inr ⟨_, fun id => ?_, rfl⟩
  refine (Client.still_client id).stepping.bind fun c => ?_
  split
  · exact (Run.still_pure _).stepping
  split
  · exact resourceExists_steps id _
  · exact (resourceExists_steps id _).bind fun _ => (Run.still_pure _).stepping

omit [Endpoint σ] in
theorem close_of_held {w : World σ} {id : Nat} (h : Sound w) (hheld : w.connection.client = some id) :
    ∃ w', close w = (.ok (), w') ∧ Sound w' ∧ w'.connection.client = none ∧
      w'.endpoint = w.endpoint ∧ w'.requests = w.requests := by
  have hholds := h.holds
  rw [hheld] at hholds
  obtain ⟨w₁, hclose, hclosed, -, hendpoint, hrequests⟩ := closeClient_holds hholds
  unfold close
  rw [Run.bind_of_ok (Run.get_apply w), hheld]
  dsimp only
  rw [Run.bind_of_ok hclose]
  exact ⟨_, rfl, ⟨⟨nofun, hclosed.opened, hclosed.addresses, hclosed.hosts⟩, by simp, by simp⟩, rfl,
    hendpoint, hrequests⟩

omit [Endpoint σ] in
theorem close_of_unheld {w : World σ} (h : w.connection.client = none) : close w = (.ok (), w) := by
  unfold close
  rw [Run.bind_of_ok (Run.get_apply w), h]
  rfl

/-- What a connection can be used for, with the requests of the clients that it gave out. -/
inductive Use where
  | hostAddress
  | getClient
  | isDomainServer
  | checkPreconditions (ifExists ifNotExists : Option String)
  | execute (client : Nat) (op : Json)
  | upload (client : Nat) (path : Path)
  | close

namespace Use

/-- The world after a use, whether or not that ended in a fault. -/
def effect (w : World σ) : Use → World σ
  | .hostAddress => (Connection.hostAddress w).2
  | .getClient => (Connection.getClient w).2
  | .isDomainServer => (Connection.isDomainServer w).2
  | .checkPreconditions ifExists ifNotExists =>
    (Connection.checkPreconditions ifExists ifNotExists w).2
  | .execute client op => (Client.execute client op w).2
  | .upload client path => (Client.upload client path w).2
  | .close => (Connection.close w).2

theorem effect_sound {w : World σ} (h : Sound w) (use : Use) : Sound (use.effect w) := by
  cases use with
  | hostAddress => exact (hostAddress_sound h).1
  | getClient => exact getClient_sound h
  | isDomainServer => exact h.client_then stepping_isDomain
  | checkPreconditions ifExists ifNotExists =>
    dsimp only [effect]
    rcases checkPreconditions_cases ifExists ifNotExists w with hw | ⟨next, hnext, hw⟩
    · rwa [hw]
    · rw [hw]
      exact h.client_then hnext
  | execute client op => exact h.of_keeps (Session.keeps_of_steps (Client.execute_steps client op w))
  | upload client path =>
    exact h.of_keeps (Session.keeps_of_steps (Client.upload_steps client path w))
  | close =>
    dsimp only [effect]
    cases hheld : w.connection.client with
    | none => rwa [close_of_unheld hheld]
    | some id =>
      obtain ⟨w', hclose, hsound, -⟩ := close_of_held h hheld
      rwa [hclose]

/-- A client that is held stays so until the connection is closed. -/
theorem effect_held {w : World σ} {id : Nat} (h : Sound w) (hheld : w.connection.client = some id)
    {use : Use} (huse : use ≠ .close) : (use.effect w).connection.client = some id := by
  have then_kept {α : Type} {next : Nat → Run σ α} (hnext : ∀ id, Run.Stepping (next id)) :
      ((Connection.getClient >>= next) w).2.connection.client = some id := by
    rw [Run.bind_of_ok (getClient_of_held hheld), (Session.keeps_of_steps (hnext id w)).connection,
      hheld]
  cases use with
  | hostAddress => exact (hostAddress_sound h).2.1.trans hheld
  | getClient =>
    dsimp only [effect]
    rwa [getClient_of_held hheld]
  | isDomainServer => exact then_kept stepping_isDomain
  | checkPreconditions ifExists ifNotExists =>
    dsimp only [effect]
    rcases checkPreconditions_cases ifExists ifNotExists w with hw | ⟨next, hnext, hw⟩
    · rwa [hw]
    · rw [hw]
      exact then_kept hnext
  | execute client op =>
    rwa [effect, (Session.keeps_of_steps (Client.execute_steps client op w)).connection]
  | upload client path =>
    rwa [effect, (Session.keeps_of_steps (Client.upload_steps client path w)).connection]
  | close => exact absurd rfl huse

end Use

/-- The world after some uses, one after the other. -/
def after (w : World σ) (uses : List Use) : World σ := uses.foldl Use.effect w

theorem after_sound {w : World σ} (h : Sound w) (uses : List Use) : Sound (after w uses) := by
  induction uses generalizing w with
  | nil => exact h
  | cons use uses ih => exact ih (use.effect_sound h)

/-- What is to be seen of a connection between two uses. -/
structure Lifetime (w : World σ) : Prop where
  connected : w.connection.state = .connected ↔ w.connection.client.isSome = true
  resolved : w.connection.state ≠ .resolvingHost
  live : ∀ id, w.connection.client = some id → (w.clientAt id).isClosed = false ∧
    (w.sessionAt (w.clientAt id).session).isOpen = true
  opened : w.sessions.countP (·.isOpen) = if w.connection.client.isSome then 1 else 0
  /-- At most one host lookup has succeeded. -/
  found : w.addresses.length ≤ 1
  hosts : ∀ c ∈ w.clients, w.addresses = [c.host]
  reused : ∀ id, w.connection.client = some id → getClient w = (.ok id, w)
  kept : ∀ id, w.connection.client = some id → ∀ use : Use, use ≠ .close →
    (use.effect w).connection.client = some id
  closing : ∃ w', close w = (.ok (), w') ∧ w'.connection.client = none ∧
    w'.endpoint = w.endpoint ∧ w'.requests = w.requests

/-- However a connection is used and whatever comes back, between two uses it holds a live client or no
session is open, and it looks up no host that was found. -/
theorem lifetime_after {w : World σ} (hw : w.Unused) (hostname : String) (port : Int)
    (source : CredentialSource) (uses : List Use) :
    Lifetime (after (w.connectingTo hostname port source) uses) := by
  have h := after_sound (sound_connectingTo hw hostname port source) uses
  generalize after (w.connectingTo hostname port source) uses = w' at h
  refine ⟨h.connected, h.resolved, fun id hid => ?_, h.holds.opened, ?_, fun c hc => ?_,
    fun id hid => getClient_of_held hid, fun id hid use huse => use.effect_held h hid huse, ?_⟩
  · exact ⟨(h.holds.live id hid).isClosed, (h.holds.live id hid).isOpen⟩
  · rw [h.holds.addresses]
    cases w'.connection.address <;> simp
  · rw [h.holds.addresses, h.holds.hosts c hc]
    rfl
  · cases hheld : w'.connection.client with
    | none => exact ⟨w', close_of_unheld hheld, hheld, rfl, rfl⟩
    | some id =>
      obtain ⟨w'', hclose, -, hclient, hendpoint, hrequests⟩ := close_of_held h hheld
      exact ⟨w'', hclose, hclient, hendpoint, hrequests⟩

/-- A launch type that cannot be read leaves no session behind. -/
theorem lifetime_of_lost_probe : Lifetime (after ((World.quiet ([.interrupted] : Script)
    (.ofText "/work") (.ofText "/home")).connectingTo "localhost" 9990 .nowhere)
      [.hostAddress, .getClient, .close]) :=
  lifetime_after (unused_quiet _ _ _) _ _ _ _

end Connection

end ServerDeploy
