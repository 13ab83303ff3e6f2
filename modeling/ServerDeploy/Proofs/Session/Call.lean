import ServerDeploy.Proofs.Session.Sending

/-! Calls of a client. A call that reaches the endpoint is one request, sent again only after a
refusal, and its outcome is what the last reply says. -/

namespace ServerDeploy

def World.ready {σ : Type} (endpoint : σ) : World σ :=
  { World.quiet endpoint (.ofText "/work") (.ofText "/home") with
    sessions := [⟨true, .nowhere, none, false⟩]
    clients := [⟨0, "127.0.0.1", 9990, "http://127.0.0.1:9990/management", false, false⟩] }

/-- A client of a standalone server that was not asked for credentials yet. -/
structure World.Fresh {σ : Type} (w : World σ) (client : Nat) : Prop where
  isClosed : (w.clientAt client).isClosed = false
  isDomain : (w.clientAt client).isDomain = false
  isOpen : (w.sessionAt (w.clientAt client).session).isOpen = true
  digest : (w.sessionAt (w.clientAt client).session).digest = none

theorem World.ready_fresh {σ : Type} (endpoint : σ) : (World.ready endpoint).Fresh 0 :=
  ⟨rfl, rfl, rfl, rfl⟩

structure ClientCall where
  call : Call
  talk : List Exchange
  sent : talk ≠ []
  attempts : Session.Attempts call talk
  atMost : talk.length ≤ 3

instance : Spoken ClientCall := ⟨ClientCall.talk⟩

@[simp] theorem exchanges_call (c : ClientCall) : Spoken.exchanges c = c.talk := rfl

namespace ClientCall

/-- The call got a management result, carried by its last reply. -/
def Reports (c : ClientCall) (o : Outcome) : Prop :=
  ∃ reply, Session.EndsIn c.talk reply ∧ ∃ d : Client, d.resultOf (Session.toResponse reply) = .ok o

def Succeeded (c : ClientCall) : Prop := ∃ o, c.Reports o ∧ o.isSuccessful = true

theorem talk_of_not_refused (c : ClientCall)
    (h : ∀ x ∈ c.talk, Session.isRefusal x.reply = false) :
    ∃ x, c.talk = [x] ∧ x.request.call = c.call := by
  rcases htalk : c.talk with _ | ⟨x, _ | ⟨y, rest⟩⟩
  · exact absurd htalk c.sent
  · exact ⟨x, rfl, c.attempts.same x (by simp [htalk])⟩
  · have hx := c.attempts.again x (by simp [htalk])
    rw [h x (by simp [htalk])] at hx
    cases hx

end ClientCall

namespace Client

/-- How one call of a client can go: nothing reaches the endpoint and there is no result, or one call
does, and a result is the one that it reports. -/
def Calls {α : Type} (call : Call) (reported : α → Outcome → Prop) (r : Except Fault α)
    (calls : List ClientCall) : Prop :=
  (calls = [] ∧ ∀ v, r ≠ .ok v) ∨
    ∃ c, calls = [c] ∧ c.call = call ∧ ∀ v, r = .ok v → ∃ o, c.Reports o ∧ reported v o

theorem calls_error {α : Type} (call : Call) (reported : α → Outcome → Prop) (e : Fault) :
    Calls call reported (.error e) [] := .inl ⟨rfl, by simp⟩

theorem Calls.ok {α : Type} {call : Call} {reported : α → Outcome → Prop} {v : α}
    {calls : List ClientCall} (h : Calls call reported (.ok v) calls) :
    ∃ c o, calls = [c] ∧ c.call = call ∧ c.Reports o ∧ reported v o := by
  rcases h with ⟨-, h⟩ | ⟨c, hcalls, hcall, h⟩
  · exact absurd rfl (h v)
  · obtain ⟨o, ho, hr⟩ := h v rfl
    exact ⟨c, o, hcalls, hcall, ho, hr⟩

variable {σ : Type} [Endpoint σ]

theorem silent_client (id : Nat) : Run.Silent (Run.client id : Run σ Client) :=
  Run.silent_get.bind fun _ => Run.silent_pure _

theorem calls_of_goes {α : Type} {body : Run σ α} {call : Call} (ended : α → Reply → Prop)
    {reported : α → Outcome → Prop} (h : Run.Speaks body (Session.Goes 3 call ended))
    (hr : ∀ v reply, ended v reply →
      ∃ o, (∃ d : Client, d.resultOf (Session.toResponse reply) = .ok o) ∧ reported v o) :
    Run.Speaks body (Calls call reported) := by
  intro w
  obtain ⟨talk, hf, ha, hn, he⟩ := h w
  rw [talkOf_exchanges] at hf
  by_cases ht : talk = []
  · refine ⟨[], by simpa [ht] using hf, .inl ⟨rfl, ?_⟩⟩
    intro v hv
    obtain ⟨reply, ⟨x, hx, -⟩, -⟩ := he v hv
    simp [ht] at hx
  · refine ⟨[⟨call, talk, ht, ha, hn⟩], by simpa using hf, .inr ⟨_, rfl, rfl, ?_⟩⟩
    intro v hv
    obtain ⟨reply, hends, hended⟩ := he v hv
    obtain ⟨o, hd, ho⟩ := hr v reply hended
    exact ⟨o, ⟨reply, hends, hd⟩, ho⟩

/-- A request whose response must be a management result, and whose faults may get other names. -/
theorem request_calls (session : Nat) (url : String) (call : Call) (c : Client)
    (handler : Fault → Run σ Response) (hhandler : ∀ e, ∃ e', handler e = throw e') :
    Run.Speaks (do
      let response ← tryCatch (Session.send session url call) handler
      Run.ofExcept (c.resultOf response) : Run σ Outcome) (Calls call Eq) := by
  refine calls_of_goes (fun o reply => c.resultOf (Session.toResponse reply) = .ok o) ?_
    fun o reply h => ⟨o, ⟨c, h⟩, rfl⟩
  have sent : Run.Speaks (tryCatch (Session.send session url call) handler)
      (Session.Goes 3 call fun response reply => response = Session.toResponse reply) := by
    refine (Session.send_speaks session url call).tryCatch (fun _ _ h => h) fun e talk h => ?_
    obtain ⟨e', he'⟩ := hhandler e
    rw [he']
    exact Run.speaks_throw ⟨by simpa using h.1, by simpa using h.2.1, by simp⟩
  refine sent.bind (fun response talk h => ?_) fun e talk h => ⟨h.1, h.2.1, by simp⟩
  refine Run.speaks_ofExcept ⟨by simpa using h.1, by simpa using h.2.1, ?_⟩
  intro o ho
  obtain ⟨reply, hends, rfl⟩ := h.2.2 response rfl
  exact ⟨reply, by simpa using hends, ho⟩

theorem execute_calls (id : Nat) (op : Json) :
    Run.Speaks (execute id op : Run σ Outcome) (Calls (.operation op) Eq) := by
  unfold execute
  refine (silent_client id).then (fun c => ?_) (calls_error _ _)
  refine Run.speaks_guard (calls_error _ _ _) ?_
  split
  · next members =>
    refine Run.speaks_guard (calls_error _ _ _) ?_
    exact request_calls c.session c.baseUrl (.operation (.obj members)) c _
      (fun e => by cases e <;> exact ⟨_, rfl⟩)
  · exact Run.speaks_throw (calls_error _ _ _)

theorem value_calls {α β : Type} {body : Run σ α} {call : Call} {reported : α → Outcome → Prop}
    (h : Run.Speaks body (Calls call reported)) (f : α → Except Fault β)
    (made : β → Outcome → Prop) (hf : ∀ v o u, reported v o → f v = .ok u → made u o) :
    Run.Speaks (body >>= fun v => Run.ofExcept (f v)) (Calls call made) := by
  refine h.bind (fun v calls hv => ?_) fun e calls he => ?_
  · obtain ⟨c, o, rfl, hcall, hr, ho⟩ := hv.ok
    exact Run.speaks_ofExcept (.inr ⟨c, rfl, hcall, fun u hu => ⟨o, hr, hf v o u ho hu⟩⟩)
  · rcases he with ⟨rfl, -⟩ | ⟨c, rfl, hcall, -⟩
    · exact calls_error _ _ e
    · exact .inr ⟨c, rfl, hcall, by simp⟩

theorem executeRequired_apply (id : Nat) (op : Json) (w : World σ) : executeRequired id op w =
    ((execute id op w).1 >>= Outcome.require, (execute id op w).2) := by
  unfold executeRequired
  rw [Run.bind_apply]
  rcases execute id op w with ⟨e | o, w₁⟩
  · rfl
  · exact Run.ofExcept_apply _ w₁

theorem executeRequired_of_result {id : Nat} {op : Json} {o : Outcome} {w w' : World σ}
    (h : execute id op w = (.ok o, w')) : executeRequired id op w = (o.require, w') := by
  rw [executeRequired_apply, h]
  rfl

theorem eq_of_require {o v : Outcome} (h : o.require = .ok v) : v = o ∧ o.isSuccessful = true := by
  unfold Outcome.require at h
  split at h
  · next hs =>
    cases h
    exact ⟨rfl, hs⟩
  · cases h

theorem executeRequired_calls (id : Nat) (op : Json) :
    Run.Speaks (executeRequired id op : Run σ Outcome)
      (Calls (.operation op) fun v o => v = o ∧ o.isSuccessful = true) := by
  refine value_calls (execute_calls id op) Outcome.require _ fun v o u ho hu => ?_
  subst ho
  exact eq_of_require hu

/-- A request whose successful result carries the hash of content. -/
theorem store_calls (session : Nat) (url : String) (call : Call) (c : Client)
    (handler : Fault → Run σ Response) (hhandler : ∀ e, ∃ e', handler e = throw e') :
    Run.Speaks (do
      let response ← tryCatch (Session.send session url call) handler
      let r ← Run.ofExcept (c.resultOf response)
      let r ← Run.ofExcept r.require
      Run.ofExcept (contentHash r) : Run σ Json)
      (Calls call fun v o => o.isSuccessful = true ∧ contentHash o = .ok v) := by
  have request := request_calls session url call c handler hhandler
  have required := value_calls request Outcome.require (fun v o => v = o ∧ o.isSuccessful = true)
    fun v o u ho hu => by
      subst ho
      exact eq_of_require hu
  have made := value_calls required contentHash
    (fun v o => o.isSuccessful = true ∧ contentHash o = .ok v) fun v o u ho hu => by
      obtain ⟨rfl, hs⟩ := ho
      exact ⟨hs, hu⟩
  simpa only [bind_assoc] using made

theorem upload_unreadable (id : Nat) {path : Path} {e : Fault} {w : World σ}
    (h : (Run.readContent path w).1 = .error e) : upload id path w = (.error e, w) := by
  have hread : Run.readContent path w = (.error e, w) := Prod.ext h (Run.still_readContent path w)
  unfold upload
  rw [Run.bind_of_ok (client_apply id w), Run.bind_apply, hread]

theorem upload_calls (id : Nat) {path : Path} {content : Content} {w : World σ}
    (h : (Run.readContent path w).1 = .ok content) : ∃ calls,
      w.Follows (talkOf calls) (upload id path w).2 ∧
        Calls (.upload path.name content)
          (fun hash o => o.isSuccessful = true ∧ contentHash o = .ok hash)
          (upload id path w).1 calls := by
  have hread : Run.readContent path w = (.ok content, w) := Prod.ext h (Run.still_readContent path w)
  unfold upload
  rw [Run.bind_of_ok (client_apply id w), Run.bind_of_ok hread]
  exact store_calls _ _ _ _ _ (fun e => by cases e <;> exact ⟨_, rfl⟩) w

theorem upload_ok {id : Nat} {path : Path} {hash : Json} {w w' : World σ}
    (h : upload id path w = (.ok hash, w')) : ∃ content c o,
      (Run.readContent path w).1 = .ok content ∧ w.Follows (ClientCall.talk c) w' ∧
        c.call = .upload path.name content ∧ c.Reports o ∧ o.isSuccessful = true ∧
          contentHash o = .ok hash := by
  cases hcontent : (Run.readContent path w).1 with
  | error e =>
    rw [upload_unreadable id hcontent] at h
    cases h
  | ok content =>
    obtain ⟨calls, hf, hcalls⟩ := upload_calls id hcontent
    rw [h] at hf hcalls
    obtain ⟨c, o, rfl, hcall, hr, hs, hhash⟩ := hcalls.ok
    exact ⟨content, c, o, rfl, by simpa using hf, hcall, hr, hs, hhash⟩

/-- A reply that is no refusal is the outcome of the operation. -/
theorem execute_fresh (op : Operation) {w : World σ} {client : Nat} {o : Outcome} {s : σ}
    (hw : w.Fresh client) (hfinite : (Json.obj op).hasNonFinite = false)
    (hanswer : ∀ request, Endpoint.answer w.endpoint request = (.answer 200 (.json (.obj o)), s))
    (hfit : (o.get? Outcome.outcomeKey).isSome = true) :
    ∃ w', execute client (.obj op) w = (.ok o, w') ∧ w'.endpoint = s ∧ w'.Fresh client := by
  have hsend (url : String) (call : Call) : ∃ w', Session.send (w.clientAt client).session url call w =
      (.ok ⟨200, .json (.obj o)⟩, w') ∧ w'.endpoint = s ∧ w'.Fresh client := by
    unfold Session.send
    rw [Run.bind_of_ok (Session.session_apply _ w), if_neg (by simp [hw.isOpen]), hw.digest]
    dsimp only
    generalize (⟨(Url.ofText url).normal.text, call, none⟩ : Request) = request
    have hexchange : Session.exchange (w.clientAt client).session request w =
        (.ok (.answer 200 (.json (.obj o))), w.exchanging (w.clientAt client).session request) := by
      rw [Session.exchange_apply, hanswer]
      rfl
    rw [Run.bind_of_ok hexchange, if_neg (by simp [Session.isRefusal]), Run.pure_apply]
    exact ⟨_, rfl, by simp [World.exchanging, hanswer], hw.isClosed, hw.isDomain, hw.isOpen, hw.digest⟩
  obtain ⟨w', hsend, hendpoint, hfresh⟩ := hsend (w.clientAt client).baseUrl (.operation (.obj op))
  refine ⟨w', ?_, hendpoint, hfresh⟩
  unfold execute
  rw [Run.bind_of_ok (client_apply client w), if_neg (by simp [hw.isClosed])]
  dsimp only
  rw [if_neg (by simp [hfinite]), Run.bind_apply, Run.tryCatch_apply, hsend]
  dsimp only
  rw [Run.ofExcept_apply]
  refine Prod.ext ?_ rfl
  simp [resultOf, hfit]

end Client

end ServerDeploy
