import ServerDeploy.Proofs.Session.Lapsing

/-! How requests end. The last reply to a request tells, be it lost, unless it was a refusal after which
the request is held back: the credentials are no texts, or calling for them has failed. Whatever it comes
to, nothing is waited for by the client itself. -/

namespace ServerDeploy

variable {σ : Type} [Endpoint σ]

namespace Session

theorem endsIn_singleton (x : Exchange) : EndsIn [x] x.reply := ⟨x, rfl, rfl⟩

/-- A request ends as its last reply says, or in a fault for which it is held back after refusals. -/
inductive Concludes (held : Fault → Prop) (r : Except Fault Reply) (talk : List Exchange) : Prop
  | replied {reply : Reply} (hends : EndsIn talk reply) (hr : r = delivered reply)
  | withheld {e : Fault} (hrefused : ∀ x ∈ talk, isRefusal x.reply = true) (he : held e)
      (hr : r = .error e)

theorem Concludes.mono {held held' : Fault → Prop} {r : Except Fault Reply} {talk : List Exchange}
    (h : Concludes held r talk) (hheld : ∀ e, held e → held' e) : Concludes held' r talk := by
  cases h with
  | replied hends hr => exact .replied hends hr
  | withheld hrefused he hr => exact .withheld hrefused (hheld _ he) hr

theorem Concludes.after {held : Fault → Prop} {r : Except Fault Reply} {x : Exchange}
    {rest : List Exchange} (hx : isRefusal x.reply = true) (h : Concludes held r rest) :
    Concludes held r (x :: rest) := by
  cases h with
  | replied hends hr => exact .replied (hends.cons x) hr
  | withheld hrefused he hr => exact .withheld (List.forall_mem_cons.2 ⟨hx, hrefused⟩) he hr

/-- A request goes out once, or not at all because of credentials that are no texts. -/
def Once (r : Except Fault Reply) (talk : List Exchange) : Prop :=
  (∃ x, talk = [x] ∧ r = delivered x.reply) ∨ talk = [] ∧ r = .error .shape

theorem Once.concludes {r : Except Fault Reply} {talk : List Exchange} (h : Once r talk) :
    Concludes (· = .shape) r talk := by
  rcases h with ⟨x, rfl, hr⟩ | ⟨rfl, hr⟩
  · exact .replied (endsIn_singleton x) hr
  · exact .withheld (by simp) rfl hr

theorem exchange_once (id : Nat) (request : Request) :
    Run.Speaks (exchange id request : Run σ Reply) Once := by
  intro w
  refine ⟨[⟨request, (Endpoint.answer w.endpoint request).1⟩], ?_, .inl ⟨_, rfl, ?_⟩⟩
  · rw [exchange_apply, talkOf_exchanges]
    exact w.follows_exchanging id request
  · rw [exchange_apply]

theorem exchangeAs_once (id : Nat) (c : Credentials) (url : String) (call : Call) :
    Run.Speaks (exchangeAs id c url call : Run σ Reply) Once := by
  unfold exchangeAs
  split
  · exact exchange_once _ _
  · exact Run.speaks_throw (.inr ⟨rfl, rfl⟩)

theorem answerChallenge_concludes (id : Nat) (c : Credentials) (url : String) (call : Call)
    {x : Exchange} (hx : delivered x.reply = .ok x.reply) :
    Run.Speaks (answerChallenge id c url call x.reply : Run σ Reply)
      fun r more => Concludes (· = .shape) r ([x] ++ more) := by
  unfold answerChallenge
  split
  · next hchallenge =>
    intro w
    rw [Run.bind_of_ok (session_apply id w), Run.bind_of_ok (setSession_apply id _ w)]
    generalize ({ w.sessionAt id with challenged := true } : Session) = s
    obtain ⟨more, hfollows, hsent⟩ := exchangeAs_once id c url call (w.withSession id s)
    have hkept : w.Follows [] (w.withSession id s) := .quiet rfl rfl rfl rfl
    exact ⟨more, hkept.trans hfollows, hsent.concludes.after (by rw [hchallenge]; rfl)⟩
  · exact Run.speaks_pure (.replied (endsIn_singleton x) hx.symm)

theorem exchangeDigest_concludes (id : Nat) (c : Credentials) (url : String) (call : Call) :
    Run.Speaks (exchangeDigest id c url call : Run σ Reply) (Concludes (· = .shape)) := by
  intro w
  unfold exchangeDigest
  rw [Run.bind_of_ok (session_apply id w)]
  refine Run.Speaks.branch (exchangeAs_once id c url call) (exchange_once id _)
    (fun reply talk h => ?_) (fun e talk h => h.concludes) w
  obtain ⟨x, rfl, hx⟩ | ⟨-, hshape⟩ := h
  · obtain rfl := eq_of_delivered hx.symm
    exact answerChallenge_concludes id c url call hx.symm
  · cases hshape

omit [Endpoint σ] in
theorem resolve_of_signIn_error {id : Nat} {e : Fault} {w w' : World σ}
    (h : signIn id w = (.error e, w')) :
    Credentials.resolve (w.sessionAt id).source (w.noting (.asked id)) = (.error e, w') := by
  have called {source : CredentialSource} (h : callSource id source w = (.error e, w')) :
      Credentials.resolve source (w.noting (.asked id)) = (.error e, w') := by
    unfold callSource at h
    rw [Run.bind_of_ok (note_apply _ w), Run.bind_apply] at h
    rcases hresolve : Credentials.resolve source (w.noting (.asked id)) with ⟨e' | _ | c, w₁⟩
    · rwa [hresolve] at h
    · rw [hresolve] at h
      cases h
    · rw [hresolve] at h
      cases h
  unfold signIn at h
  rw [Run.bind_of_ok (session_apply id w)] at h
  cases hsource : (w.sessionAt id).source with
  | nowhere =>
    rw [hsource] at h
    cases h
  | given c =>
    rw [hsource] at h
    exact called h
  | lookup user password serverId settingsFile =>
    rw [hsource] at h
    exact called h

/-- Why a request is held back after some talk: the credentials are no texts, or the source was called
for them, and with the fault of that call it is all over. -/
def Held (source : CredentialSource) (w : World σ) (talk : List Exchange) (w' : World σ) (e : Fault) :
    Prop :=
  e = .shape ∨ ∃ w₁, w.Follows talk w₁ ∧ Credentials.resolve source w₁ = (.error e, w')

/-- A request with its talk, which ends in a response or a fault as it concludes. -/
def Sends (source : CredentialSource) (w : World σ) (talk : List Exchange) (r : Except Fault Response)
    (w' : World σ) : Prop :=
  w.Follows talk w' ∧ ∃ r', r = r'.map toResponse ∧ Concludes (Held source w talk w') r' talk

variable {id : Nat} {url : String} {call : Call} {source : CredentialSource} {w w₁ w' : World σ}
  {r : Except Fault Response}

theorem digest_concludes {c : Credentials} (h : (toResponse <$> exchangeDigest id c url call) w = (r, w')) :
    ∃ talk, w.Follows talk w' ∧ ∃ r', r = r'.map toResponse ∧ Concludes (· = .shape) r' talk := by
  obtain ⟨r', hexchange, hr⟩ := of_toResponse h
  obtain ⟨talk, hfollows, hconcludes⟩ := (exchangeDigest_concludes id c url call).of_eq hexchange
  rw [talkOf_exchanges] at hfollows
  exact ⟨talk, hfollows, r', hr, hconcludes⟩

/-- After a refusal the source is called, and what it gives is sent along. -/
theorem signIn_then_sends {x : Exchange} (hfirst : w.Follows [x] w₁)
    (hx : delivered x.reply = .ok x.reply) (hrefused : isRefusal x.reply = true)
    (hsource : (w₁.sessionAt id).source = source)
    (h : (do match ← signIn id with
      | none => pure (toResponse x.reply)
      | some c => toResponse <$> exchangeDigest id c url call : Run σ Response) w₁ = (r, w')) :
    ∃ talk, Sends source w talk r w' := by
  have hsilent := silent_signIn id w₁
  rw [Run.bind_apply] at h
  rcases hsigned : signIn id w₁ with ⟨e | _ | c, w₂⟩
  · rw [hsigned] at h hsilent
    cases h
    have hresolve := resolve_of_signIn_error hsigned
    rw [hsource] at hresolve
    have hnoted : w₁.Follows [] (w₁.noting (.asked id)) := .quiet rfl rfl rfl rfl
    refine ⟨[x], by simpa using hfirst.trans hsilent, .error e, rfl, .withheld ?_ ?_ rfl⟩
    · simpa using hrefused
    · exact .inr ⟨_, by simpa using hfirst.trans hnoted, hresolve⟩
  · rw [hsigned] at h hsilent
    cases h
    exact ⟨[x], by simpa using hfirst.trans hsilent, .ok x.reply, rfl,
      .replied (endsIn_singleton x) hx.symm⟩
  · rw [hsigned] at h hsilent
    obtain ⟨talk, hfollows, r', hr, hconcludes⟩ := digest_concludes h
    exact ⟨x :: talk, (hfirst.trans hsilent).trans hfollows, r', hr,
      (hconcludes.after hrefused).mono fun _ => .inl⟩

theorem send_sends (hopen : (w.sessionAt id).isOpen = true) (h : send id url call w = (r, w')) :
    ∃ talk, Sends (w.sessionAt id).source w talk r w' := by
  unfold send at h
  rw [Run.bind_of_ok (session_apply id w), if_neg (by simp [hopen])] at h
  dsimp only at h
  generalize (Url.ofText url).normal.text = url at h
  cases hdigest : (w.sessionAt id).digest with
  | some c =>
    rw [hdigest] at h
    obtain ⟨talk, hfollows, r', hr, hconcludes⟩ := digest_concludes h
    exact ⟨talk, hfollows, r', hr, hconcludes.mono fun _ => .inl⟩
  | none =>
    rw [hdigest] at h
    have hfirst := w.follows_exchanging id ⟨url, call, none⟩
    dsimp only at h
    rw [Run.bind_apply, exchange_apply] at h
    -- from here on it matters what the endpoint has replied, not to what request
    revert h hfirst
    generalize (Endpoint.answer w.endpoint ⟨url, call, none⟩).1 = reply
    intro h hfirst
    have hends := endsIn_singleton ⟨⟨url, call, none⟩, reply⟩
    cases hdelivered : delivered reply with
    | error e =>
      rw [hdelivered] at h
      cases h
      exact ⟨_, hfirst, .error e, rfl, .replied hends hdelivered.symm⟩
    | ok reply' =>
      obtain rfl := eq_of_delivered hdelivered
      rw [hdelivered] at h
      dsimp only at h
      split at h
      · next hrefused => exact signIn_then_sends hfirst hdelivered hrefused rfl h
      · cases h
        exact ⟨_, hfirst, .ok reply', rfl, .replied hends hdelivered.symm⟩

end Session

section Unwaiting

open Run

/-- The computation does not sleep. -/
def Run.Unwaiting {α : Type} (body : Run σ α) : Prop := Along (fun w w' => w'.sleeps = w.sleeps) body

omit [Endpoint σ] in
theorem Run.Still.unwaiting {α : Type} {body : Run σ α} (h : Still body) : Unwaiting body :=
  h.along fun _ => rfl

omit [Endpoint σ] in
theorem Run.Unwaiting.bind {α β : Type} {body : Run σ α} {next : α → Run σ β} (h : Unwaiting body)
    (hnext : ∀ v, Unwaiting (next v)) : Unwaiting (body >>= next) :=
  Along.bind h (fun h h' => h'.trans h) hnext

omit [Endpoint σ] in
theorem Run.Unwaiting.map {α β : Type} {body : Run σ α} (h : Unwaiting body) (f : α → β) :
    Unwaiting (f <$> body) := by
  intro w
  rw [map_world]
  exact h w

omit [Endpoint σ] in
theorem Run.unwaiting_guard {α : Type} {p : Prop} [Decidable p] {e : Fault} {body : Run σ α}
    (h : Unwaiting body) :
    Unwaiting (if p then (throw e : Run σ PUnit) >>= fun _ => body else body) := by
  split
  · exact (still_throw e).unwaiting.bind fun _ => h
  · exact h

namespace Session

omit [Endpoint σ] in
theorem unwaiting_setSession (id : Nat) (s : Session) : Unwaiting (Run.setSession id s : Run σ Unit) :=
  fun _ => rfl

omit [Endpoint σ] in
theorem unwaiting_signIn (id : Nat) : Unwaiting (signIn id : Run σ (Option Credentials)) := by
  have unwaiting_note (e : ConnectionEvent) : Unwaiting (Run.note e : Run σ Unit) := fun _ => rfl
  have called (source : CredentialSource) :
      Unwaiting (callSource id source : Run σ (Option Credentials)) := by
    have resolved : Unwaiting (Credentials.resolve source : Run σ (Option Credentials)) := by
      intro w
      obtain ⟨is, h, -⟩ := Credentials.resolve_changes source w
      rw [h.world]
    refine (unwaiting_note _).bind fun _ => resolved.bind fun c => ?_
    cases c with
    | none => exact (still_pure _).unwaiting
    | some c =>
      exact (still_session id).unwaiting.bind fun s => (unwaiting_setSession id _).bind fun _ =>
        (unwaiting_note _).bind fun _ => (still_pure _).unwaiting
  unfold signIn
  refine (still_session id).unwaiting.bind fun s => ?_
  split
  · exact (still_pure _).unwaiting
  · exact called _

theorem unwaiting_exchange (id : Nat) (request : Request) :
    Unwaiting (exchange id request : Run σ Reply) := by
  intro w
  rw [exchange_apply]
  rfl

theorem unwaiting_exchangeAs (id : Nat) (c : Credentials) (url : String) (call : Call) :
    Unwaiting (exchangeAs id c url call : Run σ Reply) := by
  unfold exchangeAs
  split
  · exact unwaiting_exchange _ _
  · exact (still_throw _).unwaiting

theorem unwaiting_exchangeDigest (id : Nat) (c : Credentials) (url : String) (call : Call) :
    Unwaiting (exchangeDigest id c url call : Run σ Reply) := by
  have answered (reply : Reply) : Unwaiting (answerChallenge id c url call reply : Run σ Reply) := by
    unfold answerChallenge
    split
    · exact (still_session id).unwaiting.bind fun s => (unwaiting_setSession id _).bind fun _ =>
        unwaiting_exchangeAs id c url call
    · exact (still_pure _).unwaiting
  unfold exchangeDigest
  refine (still_session id).unwaiting.bind fun s => ?_
  dsimp only
  split
  · exact (unwaiting_exchangeAs id c url call).bind answered
  · exact (unwaiting_exchange id _).bind answered

theorem unwaiting_send (id : Nat) (url : String) (call : Call) :
    Unwaiting (send id url call : Run σ Response) := by
  unfold send
  refine (still_session id).unwaiting.bind fun s => unwaiting_guard ?_
  split
  · exact (unwaiting_exchangeDigest _ _ _ _).map _
  · refine (unwaiting_exchange _ _).bind fun reply => ?_
    split
    · refine (unwaiting_signIn id).bind fun found => ?_
      cases found with
      | none => exact (still_pure _).unwaiting
      | some c => exact (unwaiting_exchangeDigest _ _ _ _).map _
    · exact (still_pure _).unwaiting

end Session

theorem Client.unwaiting_execute (client : Nat) (op : Json) :
    Unwaiting (execute client op : Run σ Outcome) := by
  unfold execute
  refine (still_client client).unwaiting.bind fun c => unwaiting_guard ?_
  split
  · refine unwaiting_guard ?_
    have sent := Session.unwaiting_send (σ := σ) c.session c.baseUrl
    refine Unwaiting.bind (Along.tryCatch (sent _) (fun h h' => h'.trans h) fun e => ?_)
      fun _ => (still_ofExcept _).unwaiting
    cases e <;> exact (still_throw _).unwaiting
  · exact (still_throw _).unwaiting

end Unwaiting

namespace Client

variable {client : Nat} {op : Operation} {w w' : World σ} {r : Except Fault Response}

/-- The fault of an operation whose request has ended in a fault. Only that of a transport gets another
name. -/
def renamed (c : Client) (op : Operation) : Fault → Fault
  | .transport reason =>
    .deploy (.connection (.unreachable (operationName op) c.endpoint reason))
  | e => e

/-- The outcome of an operation, by how its request has ended. -/
def received (c : Client) (op : Operation) : Except Fault Response → Except Fault Outcome
  | .ok response => c.resultOf response
  | .error e => .error (c.renamed op e)

theorem execute_of_send (hclosed : (w.clientAt client).isClosed = false)
    (hfinite : (Json.obj op).hasNonFinite = false)
    (h : Session.send (w.clientAt client).session (w.clientAt client).baseUrl (.operation (.obj op)) w =
      (r, w')) : execute client (.obj op) w = ((w.clientAt client).received op r, w') := by
  unfold execute
  rw [Run.bind_of_ok (client_apply client w), if_neg (by simp [hclosed])]
  dsimp only
  rw [if_neg (by simp [hfinite]), Run.bind_apply, Run.tryCatch_apply, h]
  cases r with
  | error e => cases e <;> rfl
  | ok response =>
    dsimp only
    rw [Run.ofExcept_apply]
    rfl

theorem resultOf_refused {d : Client} {response : Response} (h : response.status = 401) :
    d.resultOf response =
      .error (.deploy (.operationFailed ("Authentication failed for " ++ d.endpoint) .null)) := by
  unfold resultOf
  dsimp only
  rw [if_pos (by simp [h])]

theorem resultOf_unreadable {d : Client} {response : Response} (h : response.report? = none)
    (hstatus : response.status ≠ 401) : ∃ shown, d.resultOf response =
      .error (.deploy (.operationFailed ("Unexpected response from " ++ d.endpoint ++ " (HTTP " ++
        toString response.status ++ "): " ++ shown) .null)) := by
  have hunrefused : ¬(response.status == 401) = true := by simpa using hstatus
  unfold Response.report? at h
  unfold resultOf
  dsimp only at h ⊢
  rw [if_neg hunrefused] at h ⊢
  cases hbody : response.body with
  | json v =>
    rw [hbody] at h
    cases v with
    | obj members =>
      have hnone : ¬(Members.get? Outcome.outcomeKey members).isSome = true := by simpa using h
      dsimp only
      rw [if_neg hnone]
      exact ⟨_, rfl⟩
    | null | bool | int | num | str | arr => exact ⟨_, rfl⟩
  | text s =>
    rw [hbody] at h
    dsimp only at h ⊢
    cases hparse : Json.parse? s with
    | none => exact ⟨_, rfl⟩
    | some v =>
      rw [hparse] at h
      cases v with
      | obj members =>
        have hnone : ¬(Members.get? Outcome.outcomeKey members).isSome = true := by simpa using h
        dsimp only
        rw [if_neg hnone]
        exact ⟨_, rfl⟩
      | null | bool | int | num | str | arr => exact ⟨_, rfl⟩

end Client

end ServerDeploy
