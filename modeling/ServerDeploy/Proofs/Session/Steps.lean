import Mathlib.Logic.Relation
import ServerDeploy.Proofs.Session.Asking
import ServerDeploy.Session.Connection

/-! The steps that requests are made of. Whatever is sent in a session, the world goes on by exchanges,
challenges that are kept in mind, calls for credentials and waits, each of them only where it may be. -/

namespace ServerDeploy

variable {σ : Type}

def ConnectionEvent.address? : ConnectionEvent → Option String
  | .lookedUp (.found address) => some address
  | _ => none

/-- The addresses that host lookups have given. -/
def World.addresses (w : World σ) : List String := w.journal.filterMap ConnectionEvent.address?

/-- What no step changes: clients, the connection, which sessions are open and where their credentials
come from, and what host lookups gave. -/
structure World.Keeps (w w' : World σ) : Prop where
  clients : w'.clients = w.clients
  connection : w'.connection = w.connection
  isOpen : w'.sessions.map Session.isOpen = w.sessions.map Session.isOpen
  source : w'.sessions.map Session.source = w.sessions.map Session.source
  addresses : w'.addresses = w.addresses

theorem World.keeps_refl (w : World σ) : w.Keeps w := ⟨rfl, rfl, rfl, rfl, rfl⟩

theorem World.Keeps.trans {w w₁ w₂ : World σ} (h : w.Keeps w₁) (h' : w₁.Keeps w₂) : w.Keeps w₂ :=
  ⟨h'.clients.trans h.clients, h'.connection.trans h.connection, h'.isOpen.trans h.isOpen,
    h'.source.trans h.source, h'.addresses.trans h.addresses⟩

theorem World.sessionAt_congr {α : Type} {f : Session → α} {w w' : World σ}
    (h : w'.sessions.map f = w.sessions.map f) (id : Nat) : f (w'.sessionAt id) = f (w.sessionAt id) := by
  have read (l : List Session) :
      f (l[id]?.getD default) = (l.map f)[id]?.getD (f default) := by
    rw [List.getElem?_map]
    cases l[id]? <;> rfl
  unfold World.sessionAt
  rw [read, read, h]

theorem World.Keeps.isOpen_eq {w w' : World σ} (h : w.Keeps w') (id : Nat) :
    (w'.sessionAt id).isOpen = (w.sessionAt id).isOpen := sessionAt_congr h.isOpen id

variable [Endpoint σ]

namespace Session

/-- The last thing that was done is an exchange of the session, which was refused. -/
def JustRefused (id : Nat) (journal : List ConnectionEvent) : Prop :=
  ∃ request reply, journal.getLast? = some (.exchanged id request reply) ∧ isRefusal reply = true

def Challenged (id : Nat) (journal : List ConnectionEvent) : Prop :=
  ∃ request, .exchanged id request .challenge ∈ journal

/-- A call for the credentials of the session goes on, and some have been consulted. -/
def Asking (id : Nat) (consulted : List Informant) (journal : List ConnectionEvent) : Prop :=
  ∃ past, journal = past ++ .asked id :: consulted.map ConnectionEvent.consulted

inductive Step : World σ → World σ → Prop
  | exchange {w : World σ} {id : Nat} {request : Request}
      (hc : request.user.isSome = true → (w.sessionAt id).challenged = true) :
      Step w (w.exchanging id request)
  | challenge {w : World σ} {id : Nat} (h : Challenged id w.journal) :
      Step w (w.withSession id { w.sessionAt id with challenged := true })
  | ask {w w' : World σ} {id : Nat} {is : List Informant} (hr : JustRefused id w.journal)
      (hd : (w.sessionAt id).digest = none) (h : Credentials.Changes (w.noting (.asked id)) is w') :
      Step w w'
  | grant {w : World σ} {id : Nat} {c : Credentials} {is : List Informant}
      (ha : Asking id is w.journal) (hopen : (w.sessionAt id).isOpen = true)
      (hs : (w.sessionAt id).source.isLookup = true → w.remembered.isSome = true) :
      Step w ((w.withSession id { w.sessionAt id with digest := some c }).noting (.found id))
  | wait {w : World σ} (milliseconds : Nat) : Step w (w.sleep milliseconds)

abbrev Steps : World σ → World σ → Prop := Relation.ReflTransGen Step

end Session

open Session

theorem Session.Step.keeps {w w' : World σ} (h : Step w w') : w.Keeps w' := by
  cases h with
  | exchange hc =>
    exact ⟨rfl, rfl, rfl, rfl, by simp [World.addresses, World.exchanging, ConnectionEvent.address?]⟩
  | challenge h =>
    exact ⟨rfl, rfl, World.map_withSession _ w rfl, World.map_withSession _ w rfl, rfl⟩
  | ask hr hd h =>
    rw [h.world]
    refine ⟨rfl, rfl, rfl, rfl, ?_⟩
    simp [World.addresses, World.noting, ConnectionEvent.address?]
  | grant ha hopen hs =>
    refine ⟨rfl, rfl, World.map_withSession _ w rfl, World.map_withSession _ w rfl, ?_⟩
    simp [World.addresses, World.noting, World.withSession, ConnectionEvent.address?]
  | wait milliseconds => exact ⟨rfl, rfl, rfl, rfl, rfl⟩

theorem Session.keeps_of_steps {w w' : World σ} (h : Steps w w') : w.Keeps w' := by
  induction h with
  | refl => exact World.keeps_refl w
  | tail _ hstep ih => exact ih.trans hstep.keeps

namespace Run

variable {α β : Type}

def Stepping (body : Run σ α) : Prop := ∀ w : World σ, Steps w (body w).2

theorem Still.stepping {body : Run σ α} (h : Still body) : Stepping body := by
  intro w
  rw [h w]

theorem Stepping.bind {body : Run σ α} {next : α → Run σ β} (h : Stepping body)
    (hnext : ∀ v, Stepping (next v)) : Stepping (body >>= next) :=
  related_bind .trans h hnext

theorem Stepping.tryCatch {body : Run σ α} {handler : Fault → Run σ α} (h : Stepping body)
    (hh : ∀ e, Stepping (handler e)) : Stepping (tryCatch body handler) :=
  related_tryCatch .trans h hh

theorem stepping_guard {p : Prop} [Decidable p] {e : Fault} {body : Run σ α} (h : Stepping body) :
    Stepping (if p then (throw e : Run σ PUnit) >>= fun _ => body else body) := by
  split
  · exact (still_throw e).stepping.bind fun _ => h
  · exact h

end Run

namespace Session

variable {w : World σ} {id : Nat}

theorem getLast?_exchanging {request : Request} {reply : Reply}
    (h : delivered (Endpoint.answer w.endpoint request).1 = .ok reply) :
    (w.exchanging id request).journal.getLast? = some (.exchanged id request reply) := by
  rw [eq_of_delivered h, World.exchanging, List.getLast?_concat]

theorem exchange_then_steps {request : Request} {next : Reply → Run σ Reply}
    (hc : request.user.isSome = true → (w.sessionAt id).challenged = true)
    (hnext : ∀ reply w₁, w₁.sessions = w.sessions →
      (reply = .challenge → Challenged id w₁.journal) → Steps w₁ (next reply w₁).2) :
    Steps w ((exchange id request >>= next) w).2 := by
  have sent : Steps w (w.exchanging id request) := .single (.exchange hc)
  rw [Run.bind_apply, exchange_apply]
  cases hr : delivered (Endpoint.answer w.endpoint request).1 with
  | error e => exact sent
  | ok reply =>
    refine sent.trans (hnext reply _ rfl ?_)
    rintro rfl
    exact ⟨request, List.mem_of_getLast? (getLast?_exchanging hr)⟩

theorem exchangeAs_then_steps (c : Credentials) (url : String) (call : Call)
    {next : Reply → Run σ Reply} (hc : (w.sessionAt id).challenged = true)
    (hnext : ∀ reply w₁, w₁.sessions = w.sessions →
      (reply = .challenge → Challenged id w₁.journal) → Steps w₁ (next reply w₁).2) :
    Steps w ((exchangeAs id c url call >>= next) w).2 := by
  unfold exchangeAs
  split
  · exact exchange_then_steps (fun _ => hc) hnext
  · exact .refl

theorem answerChallenge_steps (c : Credentials) (url : String) (call : Call) {reply : Reply}
    (hopen : (w.sessionAt id).isOpen = true) (hc : reply = .challenge → Challenged id w.journal) :
    Steps w (answerChallenge id c url call reply w).2 := by
  cases reply with
  | challenge =>
    have kept : Steps w (w.withSession id { w.sessionAt id with challenged := true }) :=
      .single (.challenge (hc rfl))
    have last : Steps _ ((exchangeAs id c url call >>= pure) _).2 := exchangeAs_then_steps c url call
      (w := w.withSession id { w.sessionAt id with challenged := true })
      (by rw [World.sessionAt_withSession hopen]) fun _ _ _ _ => .refl
    rw [bind_pure] at last
    unfold answerChallenge
    dsimp only
    rw [Run.bind_of_ok (session_apply id w), Run.bind_of_ok (setSession_apply id _ w)]
    exact kept.trans last
  | answer status body => exact .refl
  | lost reason => exact .refl
  | interrupted => exact .refl

theorem exchangeDigest_steps (c : Credentials) (url : String) (call : Call)
    (hopen : (w.sessionAt id).isOpen = true) : Steps w (exchangeDigest id c url call w).2 := by
  have answered (reply : Reply) (w₁ : World σ) (hs : w₁.sessions = w.sessions)
      (hc : reply = .challenge → Challenged id w₁.journal) :
      Steps w₁ (answerChallenge id c url call reply w₁).2 := by
    refine answerChallenge_steps c url call ?_ hc
    rw [World.sessionAt_of_sessions hs]
    exact hopen
  unfold exchangeDigest
  rw [Run.bind_of_ok (session_apply id w)]
  split
  · next hc => exact exchangeAs_then_steps c url call hc answered
  · exact exchange_then_steps nofun answered

/-- A call for credentials, after which a session that found some has them. -/
theorem callSource_steps {source : CredentialSource} (hsource : (w.sessionAt id).source = source)
    (hopen : (w.sessionAt id).isOpen = true) (hd : (w.sessionAt id).digest = none)
    (hr : JustRefused id w.journal) : Steps w (callSource id source w).2 := by
  obtain ⟨is, hw, hok⟩ := Credentials.resolve_changes source (w.noting (.asked id))
  unfold callSource
  rw [Run.bind_of_ok (note_apply _ w), Run.bind_apply]
  rcases hb : Credentials.resolve source (w.noting (.asked id)) with ⟨e | c, w₁⟩
  · rw [hb] at hw
    exact .single (.ask hr hd hw)
  rw [hb] at hw hok
  have asked : Steps w w₁ := .single (.ask hr hd hw)
  cases c with
  | none => exact asked
  | some c =>
    have hs : w₁.sessionAt id = w.sessionAt id := World.sessionAt_of_sessions hw.sessions id
    dsimp only
    rw [Run.bind_of_ok (session_apply id w₁), Run.bind_of_ok (setSession_apply id _ w₁),
      Run.bind_of_ok (note_apply _ _)]
    have asking : Asking id is w₁.journal := by
      rw [hw.journal]
      exact ⟨w.journal, by simp [World.noting]⟩
    refine asked.tail (.grant asking (hs ▸ hopen) fun hl => hok _ rfl ?_)
    rwa [hs, hsource] at hl

theorem signIn_steps (hopen : (w.sessionAt id).isOpen = true)
    (hd : (w.sessionAt id).digest = none) (hr : JustRefused id w.journal) :
    Steps w (signIn id w).2 := by
  unfold signIn
  rw [Run.bind_of_ok (session_apply id w)]
  cases hsource : (w.sessionAt id).source with
  | nowhere => exact .refl
  | given c => exact callSource_steps hsource hopen hd hr
  | lookup user password serverId settingsFile => exact callSource_steps hsource hopen hd hr

theorem isOpen_of_steps {w' : World σ} (h : Steps w w') (hopen : (w.sessionAt id).isOpen = true) :
    (w'.sessionAt id).isOpen = true := by
  rwa [(keeps_of_steps h).isOpen_eq]

/-- Sending takes steps only: a bare request that is refused is what the source is called for. -/
theorem send_steps (id : Nat) (url : String) (call : Call) :
    Run.Stepping (send id url call : Run σ Response) := by
  intro w
  have digest (c : Credentials) (url : String) {w₁ : World σ}
      (hopen : (w₁.sessionAt id).isOpen = true) :
      Steps w₁ ((toResponse <$> exchangeDigest id c url call : Run σ Response) w₁).2 := by
    have h := exchangeDigest_steps c url call hopen
    rw [← bind_pure_comp, Run.bind_apply]
    rcases hb : exchangeDigest id c url call w₁ with ⟨e | reply, w₂⟩
    · rwa [hb] at h
    · rwa [hb] at h
  unfold send
  rw [Run.bind_of_ok (session_apply id w)]
  split
  · exact .refl
  next hopen =>
  replace hopen : (w.sessionAt id).isOpen = true := by simpa using hopen
  split
  · exact digest _ _ hopen
  next hd =>
  -- without credentials the request goes out bare, and only a refusal makes the session sign in
  dsimp only
  generalize (Url.ofText url).normal.text = url
  have sent : Steps w (w.exchanging id ⟨url, call, none⟩) := .single (.exchange nofun)
  rw [Run.bind_apply, exchange_apply]
  cases hr : delivered (Endpoint.answer w.endpoint _).1 with
  | error e => exact sent
  | ok reply =>
    refine sent.trans ?_
    dsimp only
    split
    · next hx =>
      have signed := signIn_steps (w := w.exchanging id _) hopen hd
        ⟨_, reply, getLast?_exchanging hr, hx⟩
      rw [Run.bind_apply]
      rcases hb : signIn id (w.exchanging id _) with ⟨e | _ | c, w₁⟩
      · rw [hb] at signed
        exact signed
      · rw [hb] at signed
        exact signed
      · rw [hb] at signed
        exact signed.trans (digest _ _ (isOpen_of_steps signed hopen))
    · exact .refl

end Session

namespace Session

omit [Endpoint σ] in
theorem still_session (id : Nat) : Run.Still (Run.session id : Run σ Session) :=
  Run.still_get.bind fun _ => Run.still_pure _

end Session

namespace Client

theorem stepping_request (session : Nat) (url : String) (call : Call)
    {handler : Fault → Run σ Response} (hhandler : ∀ e, ∃ e', handler e = throw e') :
    Run.Stepping (tryCatch (Session.send session url call) handler : Run σ Response) := by
  refine (send_steps session url call).tryCatch fun e => ?_
  obtain ⟨e', he⟩ := hhandler e
  rw [he]
  exact (Run.still_throw e').stepping

omit [Endpoint σ] in
theorem still_client (id : Nat) : Run.Still (Run.client id : Run σ Client) :=
  Run.still_get.bind fun _ => Run.still_pure _

theorem execute_steps (id : Nat) (op : Json) : Run.Stepping (execute id op : Run σ Outcome) := by
  unfold execute
  refine (still_client id).stepping.bind fun c => Run.stepping_guard ?_
  split
  · refine Run.stepping_guard ?_
    exact (stepping_request _ _ _ fun e => by cases e <;> exact ⟨_, rfl⟩).bind fun _ =>
      (Run.still_ofExcept _).stepping
  · exact (Run.still_throw _).stepping

theorem executeRequired_steps (id : Nat) (op : Json) :
    Run.Stepping (executeRequired id op : Run σ Outcome) :=
  (execute_steps id op).bind fun _ => (Run.still_ofExcept _).stepping

theorem upload_steps (id : Nat) (path : Path) : Run.Stepping (upload id path : Run σ Json) := by
  unfold upload
  refine (still_client id).stepping.bind fun c => (Run.still_readContent path).stepping.bind ?_
  refine fun content =>
    (stepping_request _ _ _ fun e => by cases e <;> exact ⟨_, rfl⟩).bind fun response => ?_
  exact (Run.still_ofExcept _).stepping.bind fun _ => (Run.still_ofExcept _).stepping.bind fun _ =>
    (Run.still_ofExcept _).stepping

end Client

theorem Existence.check_steps (client : Nat) (address : Address) :
    Run.Stepping (Existence.check client address : Run σ Existence) := by
  unfold Existence.check
  split
  · refine (Client.execute_steps client _).bind fun r => Run.stepping_guard ?_
    exact (Run.still_ofExcept _).stepping
  · exact (Run.still_throw _).stepping

namespace Connection

theorem resourceExists_steps (client : Nat) (address : String) :
    Run.Stepping (resourceExists client address : Run σ Bool) := by
  unfold resourceExists
  split
  · exact (Run.still_throw _).stepping
  · exact (Existence.check_steps client _).bind fun _ => (Run.still_pure _).stepping

theorem readLaunchType_steps (client : Nat) : Run.Stepping (readLaunchType client : Run σ String) := by
  refine Run.related_retryFrom _ (fun _ => .refl) .trans ?_ (fun _ _ => .single (.wait _)) _ _
  exact (Client.executeRequired_steps client _).bind fun _ => (Run.still_pure _).stepping

end Connection

end ServerDeploy
