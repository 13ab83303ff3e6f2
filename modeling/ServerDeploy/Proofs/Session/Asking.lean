import ServerDeploy.Proofs.World.Reading
import ServerDeploy.Session.Client

/-! What single requests and calls for credentials do to a world. A request is answered and recorded;
who is consulted about credentials is recorded too, and what was found is remembered. -/

namespace ServerDeploy

variable {σ : Type}

namespace World

def clientAt (w : World σ) (id : Nat) : Client := w.clients[id]?.getD default

def sessionAt (w : World σ) (id : Nat) : Session := w.sessions[id]?.getD default

theorem clientAt_of_clients {w w' : World σ} (h : w'.clients = w.clients) (id : Nat) :
    w'.clientAt id = w.clientAt id := by
  unfold clientAt
  rw [h]

theorem sessionAt_of_sessions {w w' : World σ} (h : w'.sessions = w.sessions) (id : Nat) :
    w'.sessionAt id = w.sessionAt id := by
  unfold sessionAt
  rw [h]

theorem lt_of_isOpen {w : World σ} {id : Nat} (h : (w.sessionAt id).isOpen = true) :
    id < w.sessions.length := by
  apply Nat.lt_of_not_le
  intro hout
  have hdefault : w.sessionAt id = default := by
    unfold sessionAt
    rw [List.getElem?_eq_none hout]
    rfl
  rw [hdefault] at h
  cases h

def withSession (w : World σ) (id : Nat) (s : Session) : World σ :=
  { w with sessions := w.sessions.set id s }

theorem sessionAt_withSession {w : World σ} {id : Nat} (h : (w.sessionAt id).isOpen = true)
    (s : Session) : (w.withSession id s).sessionAt id = s := by
  unfold sessionAt withSession
  rw [List.getElem?_set_self (lt_of_isOpen h)]
  rfl

theorem map_withSession {α : Type} (f : Session → α) (w : World σ) {id : Nat} {s : Session}
    (h : f s = f (w.sessionAt id)) : (w.withSession id s).sessions.map f = w.sessions.map f := by
  unfold withSession
  dsimp only
  rw [List.map_set, h]
  unfold sessionAt
  by_cases hid : id < w.sessions.length
  · rw [List.getElem?_eq_getElem hid, Option.getD_some, ← List.getElem_map f (h := by simpa using hid),
      List.set_getElem_self]
  · exact List.set_eq_of_length_le (by simpa using hid)

theorem sessionAt_withSession_cases (w : World σ) (id : Nat) (s : Session) (other : Nat) :
    (w.withSession id s).sessionAt other = w.sessionAt other ∨
      other = id ∧ (w.withSession id s).sessionAt other = s := by
  unfold sessionAt withSession
  dsimp only
  by_cases hid : other = id
  · subst hid
    by_cases hlength : other < w.sessions.length
    · rw [List.getElem?_set_self hlength]
      exact .inr ⟨rfl, rfl⟩
    · rw [List.set_eq_of_length_le (by omega)]
      exact .inl rfl
  · rw [List.getElem?_set_ne (Ne.symm hid)]
    exact .inl rfl

def noting (w : World σ) (e : ConnectionEvent) : World σ := { w with journal := w.journal ++ [e] }

@[simp] theorem sessionAt_noting (w : World σ) (e : ConnectionEvent) (id : Nat) :
    (w.noting e).sessionAt id = w.sessionAt id := rfl

/-- The world after a request of a session. -/
def exchanging [Endpoint σ] (w : World σ) (id : Nat) (request : Request) : World σ :=
  { w with
    endpoint := (Endpoint.answer w.endpoint request).2
    requests := w.requests ++ [request]
    journal := w.journal ++ [.exchanged id request (Endpoint.answer w.endpoint request).1] }

end World

theorem World.follows_exchanging [Endpoint σ] (w : World σ) (id : Nat) (request : Request) :
    w.Follows [⟨request, (Endpoint.answer w.endpoint request).1⟩] (w.exchanging id request) :=
  ⟨.cons rfl (.nil _), by simp [exchanging], rfl, rfl⟩

theorem Client.client_apply (id : Nat) (w : World σ) :
    (Run.client id : Run σ Client) w = (.ok (w.clientAt id), w) := rfl

namespace Session

theorem session_apply (id : Nat) (w : World σ) :
    (Run.session id : Run σ Session) w = (.ok (w.sessionAt id), w) := rfl

theorem setSession_apply (id : Nat) (s : Session) (w : World σ) :
    (Run.setSession id s : Run σ Unit) w = (.ok (), w.withSession id s) := rfl

theorem note_apply (e : ConnectionEvent) (w : World σ) :
    (Run.note e : Run σ Unit) w = (.ok (), w.noting e) := rfl

variable [Endpoint σ]

def delivered : Reply → Except Fault Reply
  | .lost reason => .error (.transport reason)
  | .interrupted => .error .interrupted
  | reply => .ok reply

theorem exchange_apply (id : Nat) (request : Request) (w : World σ) :
    exchange id request w =
      (delivered (Endpoint.answer w.endpoint request).1, w.exchanging id request) := by
  have deliver (reply : Reply) (w : World σ) : (match reply with
      | .lost reason => throw (.transport reason)
      | .interrupted => throw .interrupted
      | reply => pure reply : Run σ Reply) w = (delivered reply, w) := by
    cases reply <;> rfl
  unfold exchange
  rw [Run.bind_apply, Run.modifyGet_apply]
  exact deliver _ _

theorem eq_of_delivered {reply reply' : Reply} (h : delivered reply = .ok reply') :
    reply' = reply := by
  cases reply <;> cases h <;> rfl

theorem silent_session (id : Nat) : Run.Silent (Run.session id : Run σ Session) :=
  Run.silent_get.bind fun _ => Run.silent_pure _

theorem silent_setSession (id : Nat) (s : Session) : Run.Silent (Run.setSession id s : Run σ Unit) :=
  fun _ => .quiet rfl rfl rfl rfl

end Session

namespace Run

variable {α β : Type}

/-- The computation consults some of those that are named, in their order, and otherwise only the
terminal is touched. -/
def Consults (named : List Informant) (body : Run σ α) : Prop :=
  ∀ w : World σ, ∃ (is : List Informant) (terminal : Terminal), is.Sublist named ∧
    (body w).2 = { w with
      terminal := terminal, journal := w.journal ++ is.map ConnectionEvent.consulted }

theorem Still.consults {body : Run σ α} (h : Still body) : Consults [] body := by
  intro w
  rw [h w]
  exact ⟨[], w.terminal, .slnil, by simp⟩

theorem consults_note (i : Informant) : Consults [i] (note (.consulted i) : Run σ Unit) :=
  fun w => ⟨[i], w.terminal, .refl _, rfl⟩

theorem Consults.bind {named more : List Informant} {body : Run σ α} {next : α → Run σ β}
    (h : Consults named body) (hnext : ∀ v, Consults more (next v)) :
    Consults (named ++ more) (body >>= next) := by
  intro w
  obtain ⟨is, terminal, his, hw⟩ := h w
  rw [bind_apply]
  rcases hb : body w with ⟨e | v, w₁⟩
  · rw [hb] at hw
    exact ⟨is, terminal, his.trans (List.sublist_append_left _ _), hw⟩
  · rw [hb] at hw
    obtain ⟨js, terminal', hjs, hw'⟩ := hnext v w₁
    refine ⟨is ++ js, terminal', his.append hjs, ?_⟩
    rw [hw', show w₁ = _ from hw, List.map_append, ← List.append_assoc]

theorem Consults.mono {named more : List Informant} {body : Run σ α} (h : Consults named body)
    (hs : named.Sublist more) : Consults more body := by
  intro w
  obtain ⟨is, terminal, his, hw⟩ := h w
  exact ⟨is, terminal, his.trans hs, hw⟩

end Run

def CredentialSource.isLookup : CredentialSource → Bool
  | .lookup _ _ _ _ => true
  | _ => false

namespace Credentials

theorem consults_askFor (prompt : String) : Run.Consults [] (askFor prompt : Run σ Document) := by
  intro w
  refine ⟨[], (w.terminal.ask prompt).2, .slnil, ?_⟩
  unfold askFor
  rw [Run.bind_apply, Run.modifyGet_apply]
  dsimp only
  rw [Run.ofExcept_apply]
  simp

theorem consults_askOperator : Run.Consults [.operator] (askOperator : Run σ Credentials) := by
  have printed : Run.Consults [] (modify fun w => { w with
      terminal := w.terminal.print "Authenticating against security realm: ManagementRealm" } :
      Run σ Unit) := fun w => ⟨[], _, .slnil, by simp; rfl⟩
  exact (Run.consults_note .operator).bind fun _ => printed.bind fun _ =>
    (consults_askFor _).bind fun _ => (consults_askFor _).bind fun _ => (Run.still_pure _).consults

theorem consults_fillFromStore (c : Credentials) (serverId settingsFile : Option String) :
    Run.Consults [.settingsFile] (fillFromStore c serverId settingsFile : Run σ Credentials) := by
  have nobody : Run.Consults [.settingsFile] (pure c : Run σ Credentials) :=
    (Run.still_pure c).consults.mono (List.nil_sublist _)
  unfold fillFromStore
  split
  · exact nobody
  · split
    · exact nobody
    · refine (Run.consults_note .settingsFile).bind fun _ => Run.Still.consults ?_
      refine (CredentialStore.still_openAt _).bind fun store => ?_
      refine (Run.still_ofExcept _).bind fun entry => ?_
      split
      · exact Run.still_pure _
      · exact Run.still_pure _

theorem consults_fillFromOperator (c : Credentials) :
    Run.Consults [.operator] (fillFromOperator c : Run σ Credentials) := by
  unfold fillFromOperator
  split
  · exact consults_askOperator.bind fun _ => (Run.still_pure _).consults
  · exact (Run.still_pure c).consults.mono (List.nil_sublist _)

/-- How a world is changed by a call for credentials: some are consulted, and with an answer in mind
nobody. -/
structure Changes (w : World σ) (is : List Informant) (w' : World σ) : Prop where
  world : w' = { w with
    remembered := w'.remembered
    asked := w'.asked
    terminal := w'.terminal
    journal := w.journal ++ is.map ConnectionEvent.consulted }
  consulted : is.Sublist [.settingsFile, .operator]
  remembered : w.remembered.isSome = true → is = [] ∧ w'.remembered = w.remembered

theorem Changes.sessions {w w' : World σ} {is : List Informant} (h : Changes w is w') :
    w'.sessions = w.sessions := by
  rw [h.world]

theorem Changes.endpoint {w w' : World σ} {is : List Informant} (h : Changes w is w') :
    w'.endpoint = w.endpoint := by
  rw [h.world]

theorem Changes.clients {w w' : World σ} {is : List Informant} (h : Changes w is w') :
    w'.clients = w.clients := by
  rw [h.world]

theorem Changes.journal {w w' : World σ} {is : List Informant} (h : Changes w is w') :
    w'.journal = w.journal ++ is.map ConnectionEvent.consulted := by
  rw [h.world]

theorem Changes.nobody {w w' : World σ} (h : w' = { w with asked := w'.asked }) : Changes w [] w' := by
  rw [h]
  exact ⟨by simp, List.nil_sublist _, fun _ => ⟨rfl, rfl⟩⟩

theorem lookUp_changes (user password serverId settingsFile : Option String) (w : World σ) :
    ∃ is, Changes w is (lookUp user password serverId settingsFile w).2 ∧
      ∀ c, (lookUp user password serverId settingsFile w).1 = .ok c →
        (lookUp user password serverId settingsFile w).2.remembered.isSome = true := by
  unfold lookUp
  rw [Run.bind_of_ok (Run.get_apply w)]
  cases hr : w.remembered with
  | some c => exact ⟨[], .nobody rfl, fun _ _ => by simp [hr]⟩
  | none =>
    dsimp only
    generalize (Credentials.mk _ _) = c
    have filled := (consults_fillFromStore (σ := σ) c serverId settingsFile).bind
      consults_fillFromOperator
    obtain ⟨is, terminal, his, hw⟩ := filled w
    refine ⟨is, ?_⟩
    rw [← bind_assoc, Run.bind_apply]
    rcases hb : (fillFromStore c serverId settingsFile >>= fillFromOperator) w with ⟨e | c, w₁⟩
    · rw [hb] at hw
      obtain rfl : w₁ = _ := hw
      exact ⟨⟨rfl, his, by simp [hr]⟩, nofun⟩
    · rw [hb] at hw
      obtain rfl : w₁ = _ := hw
      exact ⟨⟨rfl, his, by simp [hr]⟩, fun _ _ => rfl⟩

theorem resolve_changes (source : CredentialSource) (w : World σ) :
    ∃ is, Changes w is (resolve source w).2 ∧
      ∀ c, (resolve source w).1 = .ok c → source.isLookup = true →
        (resolve source w).2.remembered.isSome = true := by
  unfold resolve
  cases source with
  | nowhere => exact ⟨[], .nobody rfl, nofun⟩
  | given c => exact ⟨[], .nobody rfl, nofun⟩
  | lookup user password serverId settingsFile =>
    dsimp only
    rw [Run.bind_of_ok (Run.modify_apply _ w), Run.bind_apply]
    obtain ⟨is, h, hok⟩ := lookUp_changes user password serverId settingsFile
      { w with asked := w.asked + 1 }
    have changed {w' : World σ} (h : Changes { w with asked := w.asked + 1 } is w') :
        Changes w is w' := ⟨h.world, h.consulted, h.remembered⟩
    rcases hb : lookUp user password serverId settingsFile { w with asked := w.asked + 1 } with
      ⟨e | c, w₁⟩
    · rw [hb] at h
      exact ⟨is, changed h, nofun⟩
    · rw [hb] at h hok
      exact ⟨is, changed h, fun _ _ _ => hok c rfl⟩

end Credentials

end ServerDeploy
