import ServerDeploy.Proofs.Session.ManagementServer

/-! Clients whose requests get through. A server answers every request that is admitted, so a client
with an open session, and with credentials where the server asks for some, always gets the result. -/

namespace ServerDeploy

open ManagementServer

def Credentials.AreTexts (c : Credentials) : Prop :=
  (Session.isText c.user && Session.isText c.password) = true

/-- A session whose requests a server admits, at once or after it has asked for credentials. -/
structure Session.Admitted (s : Session) (guarded : Bool) : Prop where
  isOpen : s.isOpen = true
  texts : ∀ c, s.digest = some c → c.AreTexts
  found : s.digest = none → guarded = true → ∃ c, s.source = .given c ∧ c.AreTexts

/-- A session whose next request a server processes: where it will send the credentials it has they are
texts, and where it has none and needs some they are given. -/
structure Session.Passes (s : Session) (guarded : Bool) : Prop where
  isOpen : s.isOpen = true
  texts : ∀ c, s.digest = some c → (guarded || s.challenged) = true → c.AreTexts
  found : s.digest = none → guarded = true → ∃ c, s.source = .given c ∧ c.AreTexts

theorem Session.Admitted.passes {s : Session} {guarded : Bool} (h : s.Admitted guarded) :
    s.Passes guarded := ⟨h.isOpen, fun c hc _ => h.texts c hc, h.found⟩

theorem Session.admitted_of_digest {s : Session} {c : Credentials} (hopen : s.isOpen = true)
    (hdigest : s.digest = some c) (hc : c.AreTexts) (guarded : Bool) : s.Admitted guarded where
  isOpen := hopen
  texts _ hd := Option.some.inj (hdigest.symm.trans hd) ▸ hc
  found hnone := absurd (hdigest.symm.trans hnone) nofun

namespace World

variable {σ : Type}

/-- A client of a standalone server that its requests get through to. -/
structure Connected [ManagementServer σ] (w : World σ) (client : Nat) : Prop where
  isClosed : (w.clientAt client).isClosed = false
  isDomain : (w.clientAt client).isDomain = false
  admitted : (w.sessionAt (w.clientAt client).session).Admitted (isGuarded w.endpoint)

/-- A client of a standalone server whose next request is processed, perhaps only because of what it
has been through with the server. -/
structure Passes [ManagementServer σ] (w : World σ) (client : Nat) : Prop where
  isClosed : (w.clientAt client).isClosed = false
  isDomain : (w.clientAt client).isDomain = false
  session : (w.sessionAt (w.clientAt client).session).Passes (isGuarded w.endpoint)

theorem Connected.passes [ManagementServer σ] {w : World σ} {client : Nat} (h : w.Connected client) :
    w.Passes client := ⟨h.isClosed, h.isDomain, h.admitted.passes⟩

end World

theorem Composite.hasNonFinite_build (steps : List Json) :
    (Json.obj (build ⟨true, steps⟩)).hasNonFinite = Json.hasNonFinite.nonFiniteItem steps :=
  Bool.or_false _

namespace Session

variable {σ : Type} [ManagementServer σ] {w : World σ} {id : Nat} {url : String} {call : Call}
  {c : Credentials}

/-- A call was processed for a session, whose next request is processed too. -/
structure Processed (w : World σ) (id : Nat) (call : Call) (w' : World σ) : Prop where
  endpoint : w'.endpoint = (process w.endpoint call).2
  clients : w'.clients = w.clients
  passes : (w'.sessionAt id).Passes (isGuarded w.endpoint)
  admitted : (w.sessionAt id).Admitted (isGuarded w.endpoint) →
    (w'.sessionAt id).Admitted (isGuarded w.endpoint)

theorem process_answers (s : σ) (call : Call) :
    ∃ status body, (process s call).1 = .answer status body := by
  unfold process
  split
  · exact ⟨_, _, rfl⟩
  · exact ⟨_, _, rfl⟩
  · exact ⟨_, _, rfl⟩

theorem exchange_processed (id : Nat) (request : Request)
    (h : (isGuarded w.endpoint && request.user.isNone) = false) :
    exchange id request w = (.ok (process w.endpoint request.call).1, w.exchanging id request) ∧
      (w.exchanging id request).endpoint = (process w.endpoint request.call).2 := by
  obtain ⟨status, body, hreply⟩ := process_answers w.endpoint request.call
  have hanswer : Endpoint.answer w.endpoint request = process w.endpoint request.call := by
    simp only [Endpoint.answer, h, Bool.false_eq_true, if_false]
  refine ⟨?_, congrArg Prod.snd hanswer⟩
  rw [exchange_apply, hanswer, hreply]
  rfl

theorem exchange_challenged (id : Nat) (request : Request)
    (h : (isGuarded w.endpoint && request.user.isNone) = true) :
    exchange id request w = (.ok .challenge, w.exchanging id request) ∧
      (w.exchanging id request).endpoint = w.endpoint := by
  have hanswer : Endpoint.answer w.endpoint request = (.challenge, w.endpoint) := by
    simp only [Endpoint.answer, h, if_true]
  refine ⟨?_, congrArg Prod.snd hanswer⟩
  rw [exchange_apply, hanswer]
  rfl

theorem exchangeAs_processed (id : Nat) (url : String) (call : Call) (hc : c.AreTexts) :
    exchangeAs id c url call w =
        (.ok (process w.endpoint call).1, w.exchanging id ⟨url, call, some c.user⟩) ∧
      (w.exchanging id ⟨url, call, some c.user⟩).endpoint = (process w.endpoint call).2 := by
  have htexts : (isText c.user && isText c.password) = true := hc
  unfold exchangeAs
  rw [if_pos htexts]
  exact exchange_processed id _ (by simp)

/-- What a server made of a call is no challenge, and stands. -/
theorem answerChallenge_processed (s : σ) (w : World σ) :
    answerChallenge id c url call (process s call).1 w = (.ok (process s call).1, w) := by
  obtain ⟨status, body, hreply⟩ := process_answers s call
  rw [hreply]
  rfl

theorem exchangeDigest_processed (url : String) (call : Call)
    (hw : (w.sessionAt id).Passes (isGuarded w.endpoint)) (hdigest : (w.sessionAt id).digest = some c) :
    ∃ w', exchangeDigest id c url call w = (.ok (process w.endpoint call).1, w') ∧
      Processed w id call w' := by
  unfold exchangeDigest
  rw [Run.bind_of_ok (session_apply id w)]
  -- after a challenge the credentials go along at once; before one a guarded server is asked twice
  by_cases hchallenged : (w.sessionAt id).challenged = true
  · have hc := hw.texts c hdigest (by rw [hchallenged, Bool.or_true])
    obtain ⟨hsent, hendpoint⟩ := exchangeAs_processed (w := w) id url call hc
    rw [if_pos hchallenged, Run.bind_of_ok hsent]
    exact ⟨_, answerChallenge_processed _ _, hendpoint, rfl, hw, fun h => h⟩
  rw [if_neg hchallenged]
  cases hguard : isGuarded w.endpoint with
  | false =>
    obtain ⟨hsent, hendpoint⟩ := exchange_processed (w := w) id
      ⟨url, call, none⟩ (by simp [hguard])
    rw [Run.bind_of_ok hsent]
    exact ⟨_, answerChallenge_processed _ _, hendpoint, rfl, hguard ▸ hw, fun h => h⟩
  | true =>
    have hc := hw.texts c hdigest (by rw [hguard, Bool.true_or])
    obtain ⟨hsent, hendpoint⟩ := exchange_challenged (w := w) id
      ⟨url, call, none⟩ (by simp [hguard])
    rw [Run.bind_of_ok hsent]
    have hset := World.sessionAt_withSession (w := w.exchanging id ⟨url, call, none⟩) hw.isOpen
      { w.sessionAt id with challenged := true }
    have hkept : Admitted { w.sessionAt id with challenged := true } true :=
      admitted_of_digest (s := { w.sessionAt id with challenged := true }) hw.isOpen hdigest hc true
    rw [← hset] at hkept
    generalize hw₁ : (w.exchanging id ⟨url, call, none⟩).withSession id
      { w.sessionAt id with challenged := true } = w₁ at hkept
    have hendpoint₁ : w₁.endpoint = w.endpoint := by
      rw [← hw₁]
      exact hendpoint
    obtain ⟨hresent, hprocessed⟩ := exchangeAs_processed (w := w₁) id url call hc
    rw [hendpoint₁] at hresent hprocessed
    refine ⟨_, ?_, hprocessed, ?_, hguard ▸ hkept.passes, fun _ => hguard ▸ hkept⟩
    · unfold answerChallenge
      dsimp only
      rw [Run.bind_of_ok (session_apply id _), Run.bind_of_ok (setSession_apply id _ _)]
      exact hw₁ ▸ hresent
    · rw [← hw₁]
      rfl

omit [ManagementServer σ] in
theorem resolve_given (c : Credentials) (w : World σ) :
    (Credentials.resolve (.given c) : Run σ (Option Credentials)) w =
      (.ok (some c), { w with asked := w.asked + 1 }) := rfl

omit [ManagementServer σ] in
theorem toResponse_apply {body : Run σ Reply} {w w' : World σ} {reply : Reply}
    (h : body w = (.ok reply, w')) : (toResponse <$> body) w = (.ok (toResponse reply), w') := by
  rw [← bind_pure_comp, Run.bind_of_ok h]
  rfl

omit [ManagementServer σ] in
theorem signIn_given (hopen : (w.sessionAt id).isOpen = true)
    (hsource : (w.sessionAt id).source = .given c) :
    ∃ w', signIn id w = (.ok (some c), w') ∧ w'.endpoint = w.endpoint ∧ w'.clients = w.clients ∧
      w'.sessionAt id = { w.sessionAt id with digest := some c } := by
  unfold signIn callSource
  rw [Run.bind_of_ok (session_apply id w), hsource]
  dsimp only
  rw [Run.bind_of_ok (note_apply _ _), Run.bind_of_ok (resolve_given c _)]
  dsimp only
  rw [Run.bind_of_ok (session_apply id _), Run.bind_of_ok (setSession_apply id _ _),
    Run.bind_of_ok (note_apply _ _)]
  exact ⟨_, rfl, rfl, rfl, World.sessionAt_withSession hopen _⟩

/-- A request of an admitted session is processed, whatever it takes to have it admitted. -/
theorem send_processed (url : String) (call : Call)
    (hw : (w.sessionAt id).Passes (isGuarded w.endpoint)) :
    ∃ w', send id url call w = (.ok (toResponse (process w.endpoint call).1), w') ∧
      Processed w id call w' := by
  unfold send
  rw [Run.bind_of_ok (session_apply id w), if_neg (by simp [hw.isOpen])]
  dsimp only
  generalize (Url.ofText url).normal.text = url
  cases hdigest : (w.sessionAt id).digest with
  | some c =>
    obtain ⟨w', hexchange, hprocessed⟩ := exchangeDigest_processed url call hw hdigest
    exact ⟨w', toResponse_apply hexchange, hprocessed⟩
  | none =>
    dsimp only
    cases hguard : isGuarded w.endpoint with
    | false =>
      obtain ⟨hsent, hendpoint⟩ := exchange_processed (w := w) id
        ⟨url, call, none⟩ (by simp [hguard])
      rw [Run.bind_of_ok hsent, if_neg (by simp [process_not_refused]), Run.pure_apply]
      exact ⟨_, rfl, hendpoint, rfl, hguard ▸ hw, fun h => h⟩
    | true =>
      obtain ⟨hsent, hendpoint⟩ := exchange_challenged (w := w) id
        ⟨url, call, none⟩ (by simp [hguard])
      obtain ⟨c, hsource, hc⟩ := hw.found hdigest hguard
      obtain ⟨w₁, hsigned, hendpoint₁, hclients, hsession⟩ :=
        signIn_given (w := w.exchanging id ⟨url, call, none⟩) hw.isOpen hsource
      rw [Run.bind_of_ok hsent, if_pos (by rfl), Run.bind_of_ok hsigned]
      rw [hendpoint] at hendpoint₁
      have hadmitted : (w₁.sessionAt id).Admitted (isGuarded w₁.endpoint) := by
        rw [hsession]
        exact admitted_of_digest (s := { w.sessionAt id with digest := some c }) hw.isOpen rfl hc _
      obtain ⟨w', hexchange, hprocessed⟩ :=
        exchangeDigest_processed url call hadmitted.passes (by rw [hsession])
      rw [hendpoint₁] at hexchange hadmitted
      have hpasses := hprocessed.passes
      have hkept := hprocessed.admitted
      rw [hendpoint₁] at hpasses hkept
      refine ⟨w', toResponse_apply hexchange, ?_, hprocessed.clients.trans hclients, hpasses,
        fun _ => hkept hadmitted⟩
      rw [hprocessed.endpoint, hendpoint₁]

end Session

namespace Client

open Session

variable {σ : Type} [ManagementServer σ] {w w' : World σ} {client : Nat}

theorem passes_of_processed {call : Call} (hw : w.Passes client)
    (h : Processed w (w.clientAt client).session call w')
    (hguard : isGuarded (process w.endpoint call).2 = isGuarded w.endpoint) :
    w'.Passes client ∧ (w.Connected client → w'.Connected client) := by
  have hclient := World.clientAt_of_clients h.clients client
  constructor
  · refine ⟨hclient ▸ hw.isClosed, hclient ▸ hw.isDomain, ?_⟩
    rw [hclient, h.endpoint, hguard]
    exact h.passes
  · intro hconnected
    refine ⟨hclient ▸ hw.isClosed, hclient ▸ hw.isDomain, ?_⟩
    rw [hclient, h.endpoint, hguard]
    exact h.admitted hconnected.admitted

theorem isSome_of_isSuccessful {r : Outcome} (h : r.isSuccessful = true) :
    (r.get? Outcome.outcomeKey).isSome = true := by
  unfold Outcome.isSuccessful at h
  cases houtcome : r.get? Outcome.outcomeKey with
  | none =>
    rw [houtcome] at h
    cases h
  | some v => rfl

theorem resultOf_reply (c : Client) {r : Outcome} (h : (r.get? Outcome.outcomeKey).isSome = true) :
    c.resultOf (toResponse (reply r)) = .ok r := by
  have hstatus : ¬((if r.isSuccessful then 200 else 500 : Nat) == 401) = true := by
    cases r.isSuccessful <;> decide
  unfold reply toResponse resultOf
  dsimp only
  rw [if_neg hstatus, if_pos h]

/-- A client whose requests pass gets what the server makes of an operation. -/
theorem execute_passing {op : Operation} (hw : w.Passes client)
    (hfinite : (Json.obj op).hasNonFinite = false)
    (hfit : ((perform w.endpoint op).1.get? Outcome.outcomeKey).isSome = true) :
    ∃ w', execute client (.obj op) w = (.ok (perform w.endpoint op).1, w') ∧
      (isGuarded (perform w.endpoint op).2 = isGuarded w.endpoint →
        w'.Passes client ∧ (w.Connected client → w'.Connected client)) := by
  obtain ⟨w', hsend, hprocessed⟩ := send_processed (w.clientAt client).baseUrl
    (.operation (.obj op)) hw.session
  refine ⟨w', ?_, fun hguard => passes_of_processed hw hprocessed hguard⟩
  unfold execute
  rw [Run.bind_of_ok (client_apply client w), if_neg (by simp [hw.isClosed])]
  dsimp only
  rw [if_neg (by simp [hfinite]), Run.bind_apply, Run.tryCatch_apply, hsend]
  dsimp only
  rw [Run.ofExcept_apply]
  exact Prod.ext (resultOf_reply _ hfit) rfl

theorem execute_connected {op : Operation} (hw : w.Connected client)
    (hfinite : (Json.obj op).hasNonFinite = false)
    (hfit : ((perform w.endpoint op).1.get? Outcome.outcomeKey).isSome = true) :
    ∃ w', execute client (.obj op) w = (.ok (perform w.endpoint op).1, w') ∧
      (isGuarded (perform w.endpoint op).2 = isGuarded w.endpoint → w'.Connected client) := by
  obtain ⟨w', hexecute, hkept⟩ := execute_passing hw.passes hfinite hfit
  exact ⟨w', hexecute, fun hguard => (hkept hguard).2 hw⟩

omit [ManagementServer σ] in
theorem executeRequired_of_execute [Endpoint σ] {op : Json} {o : Outcome}
    (h : execute client op w = (.ok o, w')) (hs : o.isSuccessful = true) :
    executeRequired client op w = (.ok o, w') := by
  rw [executeRequired_of_result h, Outcome.require, if_pos hs]

theorem executeRequired_connected {op : Operation} (hw : w.Connected client)
    (hfinite : (Json.obj op).hasNonFinite = false)
    (hsuccess : (perform w.endpoint op).1.isSuccessful = true)
    (hguard : isGuarded (perform w.endpoint op).2 = isGuarded w.endpoint) :
    ∃ w', executeRequired client (.obj op) w = (.ok (perform w.endpoint op).1, w') ∧
      w'.Connected client := by
  obtain ⟨w', hexecute, hconnected⟩ :=
    execute_connected hw hfinite (isSome_of_isSuccessful hsuccess)
  exact ⟨w', executeRequired_of_execute hexecute hsuccess, hconnected hguard⟩

theorem upload_connected {path : Path} {content : Content} {hash : Json} (hw : w.Connected client)
    (hcontent : (Run.readContent path w).1 = .ok content)
    (hsuccess : (receive w.endpoint path.name content).1.isSuccessful = true)
    (hhash : contentHash (receive w.endpoint path.name content).1 = .ok hash)
    (hguard : isGuarded (receive w.endpoint path.name content).2 = isGuarded w.endpoint) :
    ∃ w', upload client path w = (.ok hash, w') ∧ w'.Connected client := by
  obtain ⟨w', hsend, hprocessed⟩ := send_processed
    ((w.clientAt client).baseUrl ++ "/add-content") (.upload path.name content) hw.passes.session
  refine ⟨w', ?_, (passes_of_processed hw.passes hprocessed hguard).2 hw⟩
  have hread : Run.readContent path w = (.ok content, w) :=
    Prod.ext hcontent (Run.still_readContent path w)
  unfold upload
  rw [Run.bind_of_ok (client_apply client w), Run.bind_of_ok hread, Run.bind_apply,
    Run.tryCatch_apply, hsend]
  dsimp only
  have hresult : (w.clientAt client).resultOf
      (toResponse (process w.endpoint (.upload path.name content)).1) =
        .ok (receive w.endpoint path.name content).1 :=
    resultOf_reply _ (isSome_of_isSuccessful hsuccess)
  simp only [Run.bind_apply, Run.ofExcept_apply, hresult, Outcome.require, hsuccess, if_true, hhash]

end Client

end ServerDeploy
