import ServerDeploy.Proofs.Fault.Values
import ServerDeploy.Proofs.Session.Lifetime
import ServerDeploy.Proofs.World.Endings

/-! How requests end. A client that is live finds its session open, and what the transport does is an
error for the operator; all other faults are those of a server. The connection stays between two uses
however they end. -/

namespace ServerDeploy

open Fault World Run

variable {σ : Type} {reach : Reach}

theorem World.Predictable.congr {w w' : World σ} (h : w.Predictable) (hlookups : w'.lookups = w.lookups)
    (hanswers : w'.terminal.answers = w.terminal.answers) (hdownloads : w'.downloads = w.downloads) :
    w'.Predictable := by
  refine ⟨?_, ?_, ?_⟩
  · rw [hlookups]
    exact h.lookups
  · rw [hanswers]
    exact h.answers
  · rw [hdownloads]
    exact h.downloads

/-- Changes that leave lookups, prompts and downloads as they are. -/
theorem Run.ends_modify_unscripted {f : World σ → World σ}
    (h : ∀ w, (f w).lookups = w.lookups ∧ (f w).terminal.answers = w.terminal.answers ∧
      (f w).downloads = w.downloads) : Ends reach Predictable (modify f : Run σ Unit) :=
  leads_modify fun w hw => hw.congr (h w).1 (h w).2.1 (h w).2.2

theorem Run.ends_note (e : ConnectionEvent) : Ends reach Predictable (note e : Run σ Unit) :=
  ends_modify_unscripted fun _ => ⟨rfl, rfl, rfl⟩

namespace CredentialStore

variable {I : World σ → Prop}

theorem ends_load (path : String) : Ends reach I (load path : Run σ Entries) := by
  unfold load
  refine (ends_pathExists _).bind fun found => ends_guard trivial ?_
  refine (ends_readText _).bind fun text => ?_
  split
  · exact ends_throw trivial
  · next f hf => exact ends_throw (.of_plain (Yaml.fails_parse text _ hf) reach)
  · exact ends_ofExcept (plainly_serversOf _ _)

theorem ends_openAt (path : Option String) : Ends reach I (openAt path : Run σ CredentialStore) := by
  have first (ps : List Path) : Ends reach I (firstExisting ps : Run σ (Option Path)) := by
    induction ps with
    | nil => exact ends_pure _
    | cons p rest ih =>
      refine (ends_pathExists p).bind fun found => ?_
      split
      · exact ends_pure _
      · exact ih
  unfold openAt
  extract_lets named opened
  have hopened (path : Option String) : Ends reach I (opened path) := by
    cases path with
    | none => exact ends_pure _
    | some s => exact (ends_load s).bind fun _ => ends_pure _
  cases named with
  | some s => exact (ends_pure _).bind hopened
  | none => exact ends_get.bind fun w => (first _).bind fun found => (ends_pure _).bind hopened

end CredentialStore

namespace Credentials

theorem ends_askFor (prompt : String) : Ends reach Predictable (askFor prompt : Run σ Document) := by
  refine ⟨fun w hw => ?_⟩
  have hanswer : ∀ e, w.terminal.answers.headD (.ok "") = .error e → e.In .server := by
    cases ha : w.terminal.answers with
    | nil => exact nofun
    | cons answer rest =>
      rintro e rfl
      exact hw.answers e (ha ▸ List.mem_cons_self)
  have hleft : ∀ fault, .error fault ∈ w.terminal.answers.drop 1 → fault.In .server :=
    fun fault h => hw.answers fault (List.drop_subset 1 _ h)
  unfold askFor
  rw [bind_apply, modifyGet_apply]
  dsimp only
  rw [ofExcept_apply]
  unfold Terminal.ask
  dsimp only
  cases hhead : w.terminal.answers.headD (.ok "") with
  | error e => exact ⟨⟨hw.lookups, hleft, hw.downloads⟩, (hanswer e hhead).of_server reach⟩
  | ok s => exact ⟨hw.lookups, hleft, hw.downloads⟩

theorem ends_fillFromStore (c : Credentials) (serverId settingsFile : Option String) :
    Ends reach Predictable (fillFromStore c serverId settingsFile : Run σ Credentials) := by
  unfold fillFromStore
  split
  · exact ends_pure _
  split
  · exact ends_pure _
  refine (ends_note _).bind fun _ => ?_
  refine (CredentialStore.ends_openAt _).bind fun store => ?_
  refine (ends_ofExcept (CredentialStore.plainly_get? _ _)).bind fun entry => ?_
  split
  · exact ends_pure _
  · exact ends_pure _

theorem ends_fillFromOperator (c : Credentials) :
    Ends reach Predictable (fillFromOperator c : Run σ Credentials) := by
  unfold fillFromOperator
  split
  · refine Leads.bind ?_ fun asked => ends_pure _
    refine (ends_note _).bind fun _ => ?_
    refine Leads.bind (ends_modify_unscripted fun _ => ⟨rfl, rfl, rfl⟩) fun _ => ?_
    exact (ends_askFor _).bind fun _ => (ends_askFor _).bind fun _ => ends_pure _
  · exact ends_pure _

theorem ends_resolve (source : CredentialSource) :
    Ends reach Predictable (resolve source : Run σ (Option Credentials)) := by
  have looked (user password serverId settingsFile : Option String) :
      Ends reach Predictable (lookUp user password serverId settingsFile : Run σ Credentials) := by
    refine ends_get.bind fun w => ?_
    split
    · exact ends_pure _
    · refine (ends_fillFromStore _ _ _).bind fun c => (ends_fillFromOperator c).bind fun c => ?_
      exact Leads.bind (ends_modify_unscripted fun _ => ⟨rfl, rfl, rfl⟩) fun _ => ends_pure _
  unfold resolve
  split
  · exact ends_pure _
  · exact Leads.bind (ends_modify_unscripted fun _ => ⟨rfl, rfl, rfl⟩) fun _ => ends_pure _
  · refine Leads.bind (ends_modify_unscripted fun _ => ⟨rfl, rfl, rfl⟩) fun _ => ?_
    exact (looked _ _ _ _).bind fun _ => ends_pure _

end Credentials

variable [Endpoint σ]

namespace Session

theorem ends_exchange (id : Nat) (request : Request) :
    Ends .endpoint Predictable (exchange id request : Run σ Reply) := by
  refine ⟨fun w hw => ?_⟩
  have hw' : (w.exchanging id request).Predictable := hw.congr rfl rfl rfl
  rw [exchange_apply]
  cases (Endpoint.answer w.endpoint request).1 with
  | answer status body => exact hw'
  | challenge => exact hw'
  | lost reason => exact ⟨hw', nofun⟩
  | interrupted => exact ⟨hw', trivial⟩

omit [Endpoint σ] in
theorem ends_session (id : Nat) : Ends reach Predictable (Run.session id : Run σ Session) :=
  ends_get.bind fun _ => ends_pure _

omit [Endpoint σ] in
theorem ends_setSession (id : Nat) (s : Session) :
    Ends reach Predictable (Run.setSession id s : Run σ Unit) :=
  ends_modify_unscripted fun _ => ⟨rfl, rfl, rfl⟩

theorem ends_exchangeDigest (id : Nat) (c : Credentials) (url : String) (call : Call) :
    Ends .endpoint Predictable (exchangeDigest id c url call : Run σ Reply) := by
  have exchanged : Ends .endpoint Predictable (exchangeAs id c url call : Run σ Reply) := by
    unfold exchangeAs
    split
    · exact ends_exchange _ _
    · exact ends_throw trivial
  have answered (reply : Reply) :
      Ends .endpoint Predictable (answerChallenge id c url call reply : Run σ Reply) := by
    unfold answerChallenge
    split
    · exact (ends_session id).bind fun _ => (ends_setSession id _).bind fun _ => exchanged
    · exact ends_pure _
  refine (ends_session id).bind fun s => ?_
  dsimp only
  split
  · exact exchanged.bind answered
  · exact (ends_exchange _ _).bind answered

omit [Endpoint σ] in
theorem ends_signIn (id : Nat) :
    Ends .endpoint Predictable (signIn id : Run σ (Option Credentials)) := by
  have called (source : CredentialSource) :
      Ends .endpoint Predictable (callSource id source : Run σ (Option Credentials)) := by
    refine (ends_note _).bind fun _ => ?_
    refine (Credentials.ends_resolve source).bind fun c => ?_
    split
    · exact ends_pure _
    · refine (ends_session id).bind fun _ => (ends_setSession id _).bind fun _ => ?_
      exact (ends_note _).bind fun _ => ends_pure _
  refine (ends_session id).bind fun s => ?_
  split
  · exact ends_pure _
  · exact called _

/-- In an open session the transport is all that can fail outside the server. -/
theorem ended_send {w : World σ} {id : Nat} (hw : w.Predictable)
    (hopen : (w.sessionAt id).isOpen = true) (url : String) (call : Call) :
    Ended (In .endpoint) (fun _ => Predictable) Predictable (send id url call w) := by
  unfold send
  rw [Run.bind_of_ok (session_apply id w)]
  dsimp only
  rw [if_neg (by simp [hopen])]
  generalize (Url.ofText url).normal.text = url
  have digest (c : Credentials) : Ends .endpoint Predictable
      (toResponse <$> exchangeDigest id c url call : Run σ Response) :=
    (ends_exchangeDigest id c url call).map _
  cases (w.sessionAt id).digest with
  | some c => exact (digest c).ended w hw
  | none =>
    refine (show Ends .endpoint Predictable _ from ?_).ended w hw
    refine (ends_exchange id _).bind fun reply => ?_
    split
    · refine (ends_signIn id).bind fun c => ?_
      split
      · exact ends_pure _
      · exact digest _
    · exact ends_pure _

end Session

namespace World

/-- A client is live in a world that has kept what no request changes. -/
structure Serves (w₀ : World σ) (id : Nat) (w : World σ) : Prop where
  keeps : w₀.Keeps w
  predictable : w.Predictable
  live : w.Live id

omit [Endpoint σ] in
theorem Serves.refl {w : World σ} {id : Nat} (h : w.Predictable) (hlive : w.Live id) :
    w.Serves id w := ⟨keeps_refl w, h, hlive⟩

end World

omit [Endpoint σ] in
theorem World.steady_serves (w₀ : World σ) (id : Nat) : Steady (w₀.Serves id) := by
  intro w w' h ha
  refine ⟨h.keeps.trans ⟨ha.clients, ha.connection, by rw [ha.sessions], by rw [ha.sessions], ?_⟩,
    steady_predictable _ _ h.predictable ha, h.live.congr ha.clients ha.sessions⟩
  rw [addresses, ha.journal]
  rfl

namespace Client

variable (w₀ : World σ) (id : Nat)

omit [Endpoint σ] in
theorem leads_client {I J : World σ → Prop} (id : Nat) :
    Leads (In reach) I (Run.client id : Run σ Client) (fun c w => I w ∧ w.clientAt id = c) J :=
  ⟨fun _ hw => ⟨hw, rfl⟩⟩

/-- A request of a live client fails as one of a server does, with the transport translated. -/
theorem leads_request (c : Client) (url : String) (call : Call) {handler : Fault → Run σ Response}
    (ht : ∀ reason, ∃ e, handler (.transport reason) = Run.fail e)
    (ho : ∀ e : Fault, (∀ reason, e ≠ .transport reason) → handler e = throw e) :
    Leads (In .server) (fun w => w₀.Serves id w ∧ w.clientAt id = c)
      (tryCatch (Session.send c.session url call) handler : Run σ Response)
      (fun _ => w₀.Serves id) (w₀.Serves id) := by
  have handled (e : Fault) (he : e.In .endpoint) : Ends .server (w₀.Serves id) (handler e) := by
    by_cases htransport : ∃ reason, e = .transport reason
    · obtain ⟨reason, rfl⟩ := htransport
      obtain ⟨e', he'⟩ := ht reason
      rw [he']
      exact ends_fail e'
    · have hne : ∀ reason, e ≠ .transport reason := fun reason h => htransport ⟨reason, h⟩
      rw [ho e hne]
      exact ends_throw (he.server_of_endpoint hne)
  refine Leads.catch (J := w₀.Serves id) ?_ handled
  refine ⟨fun w hw => ?_⟩
  obtain ⟨hw, rfl⟩ := hw
  have hkept := Session.keeps_of_steps (Session.send_steps (w.clientAt id).session url call w)
  have hended := Session.ended_send hw.predictable hw.live.isOpen url call
  rcases hb : Session.send (w.clientAt id).session url call w with ⟨e | r, w₁⟩
  · rw [hb] at hended hkept
    exact ⟨⟨hw.keeps.trans hkept, hended.1, hw.live.of_keeps hkept⟩, hended.2⟩
  · rw [hb] at hended hkept
    exact ⟨hw.keeps.trans hkept, hended, hw.live.of_keeps hkept⟩

theorem ends_execute (op : Json) : Ends .server (w₀.Serves id) (execute id op : Run σ Outcome) := by
  refine (leads_client id).bind fun c => ?_
  dsimp only
  split
  · next hclosed =>
    refine ⟨fun w hw => ?_⟩
    obtain ⟨hw, rfl⟩ := hw
    have hlive := hw.live.isClosed
    rw [hclosed] at hlive
    cases hlive
  split
  · split
    · exact Leads.under (ends_throw trivial) fun _ h => h.1
    · refine (leads_request w₀ id c _ _ (fun _ => ⟨_, rfl⟩) fun e he => ?_).bind fun response =>
        ends_ofExcept (plainly_resultOf c response)
      cases e <;> first | rfl | exact absurd rfl (he _)
  · exact Leads.under (ends_throw trivial) fun _ h => h.1

theorem ends_executeRequired (op : Json) :
    Ends .server (w₀.Serves id) (executeRequired id op : Run σ Outcome) :=
  (ends_execute w₀ id op).bind fun r => ends_ofExcept r.plainly_require

theorem ends_upload (path : Path) : Ends .server (w₀.Serves id) (upload id path : Run σ Json) := by
  refine (leads_client id).bind fun c => ?_
  have read : Leads (In .server) (fun w => w₀.Serves id w ∧ w.clientAt id = c)
      (readContent path : Run σ Content) (fun _ w => w₀.Serves id w ∧ w.clientAt id = c)
      (w₀.Serves id) := Leads.mono (ends_readContent path) (fun _ _ h => h) fun _ h => h.1
  refine read.bind fun content => ?_
  refine (leads_request w₀ id c _ _ (fun _ => ⟨_, rfl⟩) fun e he => ?_).bind fun response => ?_
  · cases e <;> first | rfl | exact absurd rfl (he _)
  · refine (ends_ofExcept (plainly_resultOf c response)).bind fun r => ?_
    exact (ends_ofExcept r.plainly_require).bind fun r => ends_ofExcept (plainly_contentHash r)

theorem ends_profileNames : Ends .server (w₀.Serves id) (profileNames id : Run σ (List Json)) := by
  have hclient : Ends .server (w₀.Serves id) (Run.client id : Run σ Client) :=
    ends_get.bind fun _ => ends_pure _
  refine hclient.bind fun c => ends_guard trivial ?_
  exact (ends_executeRequired w₀ id _).bind fun r => ends_ofExcept (plainly_namesOf r.result)

end Client

theorem Existence.ends_check (w₀ : World σ) (client : Nat) (address : Address) :
    Ends .server (w₀.Serves client) (check client address : Run σ Existence) := by
  unfold check
  split
  · refine (Client.ends_execute w₀ client _).bind fun r => ends_guard trivial ?_
    exact ends_ofExcept (plainly_ofResult _ _ _)
  · exact ends_fail _

end ServerDeploy
