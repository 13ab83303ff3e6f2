import ServerDeploy.Proofs.Session.Passing
import ServerDeploy.Proofs.Session.Steps

/-! Clients whose next operation gets out. A session that has had an answer can send whatever it will
need to send, so the operation after it reaches the endpoint, whatever becomes of it there. -/

namespace ServerDeploy

variable {σ : Type} {w w' : World σ}

theorem Run.map_world {α β : Type} (f : α → β) (body : Run σ α) (w : World σ) :
    ((f <$> body) w).2 = (body w).2 := by
  rw [← bind_pure_comp, bind_apply]
  rcases body w with ⟨e | v, w₁⟩ <;> rfl

variable [Endpoint σ]

/-- No request is taken back. -/
theorem Run.Speaks.length_le {α ι : Type} [Spoken ι] {body : Run σ α}
    {Q : Except Fault α → List ι → Prop} (h : Speaks body Q) (w : World σ) :
    w.requests.length ≤ (body w).2.requests.length := by
  obtain ⟨items, hfollows, -⟩ := h w
  rw [hfollows.requests, List.length_append]
  exact Nat.le_add_right _ _

namespace Session

variable {id : Nat} {url : String} {call : Call} {c : Credentials}

theorem passes_of_texts {s : Session} (hopen : s.isOpen = true) (hdigest : s.digest = some c)
    (htexts : s.challenged = true → c.AreTexts) : s.Passes false where
  isOpen := hopen
  texts _ hd hchallenged := Option.some.inj (hdigest.symm.trans hd) ▸ htexts hchallenged
  found hnone := absurd (hdigest.symm.trans hnone) nofun

section Reaching

theorem exchange_then_longer {α : Type} {next : Reply → Run σ α}
    {Q : Except Fault α → List Exchange → Prop} (request : Request)
    (hnext : ∀ reply, Run.Speaks (next reply) Q) (w : World σ) :
    w.requests.length < ((exchange id request >>= next) w).2.requests.length := by
  have hsent : w.requests.length < (w.exchanging id request).requests.length := by
    simp [World.exchanging]
  rw [Run.bind_apply, exchange_apply]
  cases delivered (Endpoint.answer w.endpoint request).1 with
  | error e => exact hsent
  | ok reply => exact Nat.lt_of_lt_of_le hsent ((hnext reply).length_le _)

theorem exchangeDigest_longer (hw : (w.sessionAt id).Passes false)
    (hdigest : (w.sessionAt id).digest = some c) :
    w.requests.length < (exchangeDigest id c url call w).2.requests.length := by
  have answered (reply : Reply) :
      Run.Speaks (answerChallenge id c url call reply : Run σ Reply) fun _ (_ : List Exchange) => True :=
    (answerChallenge_speaks id c url (x := ⟨⟨url, call, none⟩, reply⟩) rfl).weaken
      fun _ _ _ => trivial
  unfold exchangeDigest
  rw [Run.bind_of_ok (session_apply id w)]
  split
  · next hchallenged =>
    have htexts : (isText c.user && isText c.password) = true := hw.texts c hdigest hchallenged
    unfold exchangeAs
    rw [if_pos htexts]
    exact exchange_then_longer _ answered w
  · exact exchange_then_longer _ answered w

/-- A session that passes sends at least one request for a call. -/
theorem send_longer (url : String) (call : Call) (hw : (w.sessionAt id).Passes false) :
    w.requests.length < (send id url call w).2.requests.length := by
  have digest (c : Credentials) (url : String) : Run.Speaks
      (toResponse <$> exchangeDigest id c url call : Run σ Response)
        fun _ (_ : List Exchange) => True := by
    rw [← bind_pure_comp]
    exact (exchangeDigest_speaks id c url call).bind (fun _ _ _ => Run.speaks_pure trivial)
      fun _ _ _ => trivial
  unfold send
  rw [Run.bind_of_ok (session_apply id w), if_neg (by simp [hw.isOpen])]
  dsimp only
  cases hdigest : (w.sessionAt id).digest with
  | some c =>
    dsimp only
    rw [Run.map_world]
    exact exchangeDigest_longer hw hdigest
  | none =>
    refine exchange_then_longer (Q := fun _ _ => True) _ (fun reply => ?_) w
    split
    · refine (silent_signIn id).then (fun found => ?_) fun _ => trivial
      cases found with
      | none => exact Run.speaks_pure trivial
      | some c => exact digest c _
    · exact Run.speaks_pure trivial

end Reaching

/-- Only credentials that are no texts are held back. -/
theorem exchangeAs_sent {r : Except Fault Reply} (h : exchangeAs id c url call w = (r, w'))
    (hr : r ≠ .error .shape) : c.AreTexts ∧ w'.sessions = w.sessions := by
  unfold exchangeAs at h
  split at h
  · next htexts =>
    rw [exchange_apply] at h
    obtain ⟨-, rfl⟩ := Prod.mk.inj h
    exact ⟨htexts, rfl⟩
  · cases h
    exact absurd rfl hr

theorem passes_of_answerChallenge {reply : Reply} {r : Except Fault Reply}
    (hopen : (w.sessionAt id).isOpen = true) (hdigest : (w.sessionAt id).digest = some c)
    (htexts : (w.sessionAt id).challenged = true → c.AreTexts)
    (h : answerChallenge id c url call reply w = (r, w')) (hr : r ≠ .error .shape) :
    (w'.sessionAt id).Passes false := by
  cases reply with
  | challenge =>
    unfold answerChallenge at h
    dsimp only at h
    rw [Run.bind_of_ok (session_apply id w), Run.bind_of_ok (setSession_apply id _ w)] at h
    obtain ⟨hc, hkept⟩ := exchangeAs_sent h hr
    rw [World.sessionAt_of_sessions hkept, World.sessionAt_withSession hopen]
    exact passes_of_texts hopen hdigest fun _ => hc
  | answer status body =>
    cases h
    exact passes_of_texts hopen hdigest htexts
  | lost reason =>
    cases h
    exact passes_of_texts hopen hdigest htexts
  | interrupted =>
    cases h
    exact passes_of_texts hopen hdigest htexts

theorem passes_of_exchange_then {body : Run σ Reply} {w₁ : World σ} {r₁ r : Except Fault Reply}
    (hopen : (w.sessionAt id).isOpen = true) (hdigest : (w.sessionAt id).digest = some c)
    (hsent : body w = (r₁, w₁)) (hkept : w₁.sessions = w.sessions)
    (htexts : (w.sessionAt id).challenged = true → c.AreTexts)
    (h : (body >>= answerChallenge id c url call) w = (r, w')) (hr : r ≠ .error .shape) :
    (w'.sessionAt id).Passes false := by
  have hsession := World.sessionAt_of_sessions hkept id
  rw [← hsession] at hopen hdigest htexts
  rw [Run.bind_apply, hsent] at h
  cases r₁ with
  | error e =>
    cases h
    exact passes_of_texts hopen hdigest htexts
  | ok reply => exact passes_of_answerChallenge hopen hdigest htexts h hr

theorem passes_of_digest_answer {r : Except Fault Reply} (hopen : (w.sessionAt id).isOpen = true)
    (hdigest : (w.sessionAt id).digest = some c)
    (h : exchangeDigest id c url call w = (r, w')) (hr : r ≠ .error .shape) :
    (w'.sessionAt id).Passes false := by
  unfold exchangeDigest at h
  rw [Run.bind_of_ok (session_apply id w)] at h
  dsimp only at h
  split at h
  · rcases hsent : exchangeAs id c url call w with ⟨r₁, w₁⟩
    have hfirst : r₁ ≠ .error .shape := by
      rintro rfl
      rw [Run.bind_apply, hsent] at h
      cases h
      exact hr rfl
    obtain ⟨hc, hkept⟩ := exchangeAs_sent hsent hfirst
    exact passes_of_exchange_then hopen hdigest hsent hkept (fun _ => hc) h hr
  · next hchallenged =>
    exact passes_of_exchange_then hopen hdigest (exchange_apply id _ w) rfl
      (fun hc => absurd hc hchallenged) h hr

omit [Endpoint σ] in
/-- A session that gets no credentials is left as it was, also if calling for them fails. -/
theorem sessions_of_signIn {r : Except Fault (Option Credentials)} (h : signIn id w = (r, w'))
    (hr : ∀ c, r ≠ .ok (some c)) : w'.sessions = w.sessions := by
  have called {source : CredentialSource} (h : callSource id source w = (r, w')) :
      w'.sessions = w.sessions := by
    unfold callSource at h
    rw [Run.bind_of_ok (note_apply _ w), Run.bind_apply] at h
    obtain ⟨is, hchanges, -⟩ := Credentials.resolve_changes source (w.noting (.asked id))
    rcases hresolve : Credentials.resolve source (w.noting (.asked id)) with ⟨e | _ | c, w₁⟩
    · rw [hresolve] at h hchanges
      cases h
      exact hchanges.sessions
    · rw [hresolve] at h hchanges
      cases h
      exact hchanges.sessions
    · rw [hresolve] at h
      cases h
      exact absurd rfl (hr c)
  unfold signIn at h
  rw [Run.bind_of_ok (session_apply id w)] at h
  cases hsource : (w.sessionAt id).source with
  | nowhere =>
    rw [hsource] at h
    cases h
    rfl
  | given c =>
    rw [hsource] at h
    exact called h
  | lookup user password serverId settingsFile =>
    rw [hsource] at h
    exact called h

/-- After a request that was not held back the next one goes out, whatever has become of this one. -/
theorem passes_of_send_sent {r : Except Fault Response} (hopen : (w.sessionAt id).isOpen = true)
    (h : send id url call w = (r, w')) (hr : r ≠ .error .shape) : (w'.sessionAt id).Passes false := by
  have digest {c : Credentials} {url : String} {w₁ : World σ} {r : Except Fault Response}
      (hopen : (w₁.sessionAt id).isOpen = true) (hdigest : (w₁.sessionAt id).digest = some c)
      (h : (toResponse <$> exchangeDigest id c url call) w₁ = (r, w')) (hr : r ≠ .error .shape) :
      (w'.sessionAt id).Passes false := by
    obtain ⟨r', hexchange, rfl⟩ := of_toResponse h
    refine passes_of_digest_answer hopen hdigest hexchange ?_
    rintro rfl
    exact hr rfl
  unfold send at h
  rw [Run.bind_of_ok (session_apply id w), if_neg (by simp [hopen])] at h
  dsimp only at h
  cases hdigest : (w.sessionAt id).digest with
  | some c =>
    rw [hdigest] at h
    exact digest hopen hdigest h hr
  | none =>
    rw [hdigest] at h
    dsimp only at h
    -- a session without credentials has nothing that could not be sent
    have bare : (w.sessionAt id).Passes false := ⟨hopen, by simp [hdigest], by simp⟩
    rw [Run.bind_apply, exchange_apply] at h
    cases hdelivered : delivered (Endpoint.answer w.endpoint _).1 with
    | error e =>
      rw [hdelivered] at h
      cases h
      exact bare
    | ok reply =>
      rw [hdelivered] at h
      dsimp only at h
      split at h
      · rw [Run.bind_apply] at h
        rcases hsigned : signIn id (w.exchanging id _) with ⟨e | _ | c, w₂⟩
        · rw [hsigned] at h
          cases h
          rw [World.sessionAt_of_sessions (sessions_of_signIn hsigned nofun)]
          exact bare
        · rw [hsigned] at h
          cases h
          rw [World.sessionAt_of_sessions (sessions_of_signIn hsigned nofun)]
          exact bare
        · rw [hsigned] at h
          obtain ⟨-, -, hsession⟩ := signIn_some (w := w.exchanging id _) hopen hsigned
          exact digest (c := c) (by rw [hsession]; exact hopen) (by rw [hsession]) h hr
      · cases h
        exact bare

theorem passes_of_send {r : Response} (h : send id url call w = (.ok r, w')) :
    (w'.sessionAt id).Passes false := by
  by_cases hopen : (w.sessionAt id).isOpen = true
  · exact passes_of_send_sent hopen h nofun
  · unfold send at h
    rw [Run.bind_of_ok (session_apply id w), if_pos (by simpa using hopen)] at h
    cases h

end Session

/-- A client whose next operation gets out to the endpoint. -/
structure World.Reaches (w : World σ) (client : Nat) : Prop where
  isClosed : (w.clientAt client).isClosed = false
  session : (w.sessionAt (w.clientAt client).session).Passes false

namespace Client

variable {client : Nat} {op : Operation}

/-- An operation that has an outcome was sent in a session that could send it. -/
theorem reaches_of_execute {o : Outcome} (h : execute client (.obj op) w = (.ok o, w')) :
    w'.Reaches client := by
  have hkept := Session.keeps_of_steps (execute_steps client (.obj op) w)
  rw [h] at hkept
  have hclient := World.clientAt_of_clients hkept.clients client
  obtain ⟨hclosed, response, hsent, -⟩ := send_of_execute h
  refine ⟨by rw [hclient, hclosed], ?_⟩
  rw [hclient]
  exact Session.passes_of_send hsent

theorem execute_nonFinite (hw : w.Reaches client) (h : (Json.obj op).hasNonFinite = true) :
    execute client (.obj op) w =
      (.error (.value "Out of range float values are not JSON compliant"), w) := by
  unfold execute
  rw [Run.bind_of_ok (client_apply client w), if_neg (by simp [hw.isClosed])]
  dsimp only
  rw [if_pos h]
  rfl

theorem execute_reaches (hw : w.Reaches client) (hfinite : (Json.obj op).hasNonFinite = false) :
    ∃ c : ClientCall, c.call = .operation (.obj op) ∧
      w.Follows c.talk (execute client (.obj op) w).2 ∧
      ∀ o, (execute client (.obj op) w).1 = .ok o → c.Reports o := by
  have hlonger : w.requests.length < (execute client (.obj op) w).2.requests.length := by
    have hsent := Session.send_longer (w.clientAt client).baseUrl (.operation (.obj op)) hw.session
    unfold execute
    rw [Run.bind_of_ok (client_apply client w), if_neg (by simp [hw.isClosed])]
    dsimp only
    rw [if_neg (by simp [hfinite]), Run.bind_apply, Run.tryCatch_apply]
    rcases hs : Session.send (w.clientAt client).session (w.clientAt client).baseUrl
      (.operation (.obj op)) w with ⟨e | response, w₁⟩
    · rw [hs] at hsent
      cases e <;> exact hsent
    · rw [hs] at hsent
      dsimp only
      rw [Run.ofExcept_apply]
      exact hsent
  obtain ⟨calls, hfollows, hcalls⟩ := execute_calls client (.obj op) w
  rcases hcalls with ⟨rfl, -⟩ | ⟨c, rfl, hcall, hreports⟩
  · rw [hfollows.requests] at hlonger
    simp at hlonger
  · refine ⟨c, hcall, by simpa using hfollows, fun o ho => ?_⟩
    obtain ⟨_, hreported, rfl⟩ := hreports o ho
    exact hreported

end Client

end ServerDeploy
