import ServerDeploy.Proofs.Session.CompositeRun
import ServerDeploy.Proofs.Session.Connected

/-! Clients that have got through once. After a request that was not refused the next one passes too,
whatever the first took: the session has credentials that can be sent, or the server asks for none. -/

namespace ServerDeploy

open ManagementServer

namespace Session

variable {σ : Type} [ManagementServer σ] {w : World σ} {id : Nat} {url : String} {call : Call}
  {c : Credentials}

theorem exchangeAs_refused (url : String) (call : Call) (hc : ¬c.AreTexts) :
    exchangeAs id c url call w = (.error .shape, w) := by
  have htexts : ¬(isText c.user && isText c.password) = true := hc
  unfold exchangeAs
  rw [if_neg htexts]
  rfl

/-- Credentials that are no texts are not sent, so an exchange that came to its end did not need them. -/
theorem passes_of_exchangeDigest {reply : Reply} {w' : World σ} (hopen : (w.sessionAt id).isOpen = true)
    (hdigest : (w.sessionAt id).digest = some c)
    (h : exchangeDigest id c url call w = (.ok reply, w')) :
    (w.sessionAt id).Passes (isGuarded w.endpoint) := by
  by_cases hc : c.AreTexts
  · exact (admitted_of_digest hopen hdigest hc _).passes
  · refine ⟨hopen, fun d _ hneeded => ?_, fun hnone => absurd (hdigest.symm.trans hnone) nofun⟩
    exfalso
    unfold exchangeDigest at h
    rw [Run.bind_of_ok (session_apply id w)] at h
    split at h
    · rw [Run.bind_apply, exchangeAs_refused url call hc] at h
      cases h
    · next hchallenged =>
      have hguard : isGuarded w.endpoint = true := by simpa [hchallenged] using hneeded
      obtain ⟨hsent, -⟩ := exchange_challenged (w := w) id ⟨url, call, none⟩ (by simp [hguard])
      rw [Run.bind_of_ok hsent] at h
      unfold answerChallenge at h
      dsimp only at h
      rw [Run.bind_of_ok (session_apply id _), Run.bind_of_ok (setSession_apply id _ _),
        exchangeAs_refused url call hc] at h
      cases h

omit [ManagementServer σ] in
theorem callSource_some {source : CredentialSource} {w' : World σ}
    (hopen : (w.sessionAt id).isOpen = true) (h : callSource id source w = (.ok (some c), w')) :
    w'.endpoint = w.endpoint ∧ w'.clients = w.clients ∧
      w'.sessionAt id = { w.sessionAt id with digest := some c } := by
  unfold callSource at h
  rw [Run.bind_of_ok (note_apply _ w)] at h
  obtain ⟨found, w₁, hresolve, h⟩ := Run.ok_of_bind h
  obtain ⟨is, hchanges, -⟩ := Credentials.resolve_changes source (w.noting (.asked id))
  rw [hresolve] at hchanges
  dsimp only at hchanges
  have hsession : w₁.sessionAt id = w.sessionAt id :=
    World.sessionAt_of_sessions hchanges.sessions id
  cases found with
  | none => cases h
  | some c' =>
    dsimp only at h
    rw [Run.bind_of_ok (session_apply id w₁), Run.bind_of_ok (setSession_apply id _ w₁),
      Run.bind_of_ok (note_apply _ _), Run.pure_apply] at h
    cases h
    have hset := World.sessionAt_withSession (hsession ▸ hopen)
      { w₁.sessionAt id with digest := some c }
    exact ⟨hchanges.endpoint, hchanges.clients, by rw [World.sessionAt_noting, hset, hsession]⟩

omit [ManagementServer σ] in
theorem signIn_some {w' : World σ} (hopen : (w.sessionAt id).isOpen = true)
    (h : signIn id w = (.ok (some c), w')) : w'.endpoint = w.endpoint ∧ w'.clients = w.clients ∧
      w'.sessionAt id = { w.sessionAt id with digest := some c } := by
  unfold signIn at h
  rw [Run.bind_of_ok (session_apply id w)] at h
  cases hsource : (w.sessionAt id).source with
  | nowhere =>
    rw [hsource] at h
    cases h
  | given c' =>
    rw [hsource] at h
    exact callSource_some hopen h
  | lookup user password serverId settingsFile =>
    rw [hsource] at h
    exact callSource_some hopen h

omit [ManagementServer σ] in
theorem of_toResponse {body : Run σ Reply} {w w' : World σ} {r : Except Fault Response}
    (h : (toResponse <$> body) w = (r, w')) : ∃ r', body w = (r', w') ∧ r = r'.map toResponse := by
  rw [← bind_pure_comp, Run.bind_apply] at h
  rcases hbody : body w with ⟨e | reply, w₁⟩
  all_goals
    rw [hbody] at h
    cases h
    exact ⟨_, rfl, rfl⟩

omit [ManagementServer σ] in
theorem ok_of_toResponse {body : Run σ Reply} {w w' : World σ} {r : Response}
    (h : (toResponse <$> body) w = (.ok r, w')) :
    ∃ reply, body w = (.ok reply, w') ∧ toResponse reply = r := by
  obtain ⟨_ | reply, hbody, hr⟩ := of_toResponse h
  · cases hr
  · exact ⟨reply, hbody, (Except.ok.inj hr).symm⟩

theorem processed_of_signIn {reply : Reply} {w₁ w' : World σ} (hopen : (w.sessionAt id).isOpen = true)
    (hsigned : signIn id w = (.ok (some c), w₁))
    (h : exchangeDigest id c url call w₁ = (.ok reply, w')) :
    w'.endpoint = (process w.endpoint call).2 ∧ w'.clients = w.clients ∧
      (w'.sessionAt id).Passes (isGuarded w.endpoint) := by
  obtain ⟨hendpoint, hclients, hsession⟩ := signIn_some hopen hsigned
  have hdigest : (w₁.sessionAt id).digest = some c := by rw [hsession]
  have hopen₁ : (w₁.sessionAt id).isOpen = true := by
    rw [hsession]
    exact hopen
  obtain ⟨w₂, hexchange, hprocessed⟩ :=
    exchangeDigest_processed url call (passes_of_exchangeDigest hopen₁ hdigest h) hdigest
  rw [h] at hexchange
  obtain ⟨-, rfl⟩ := Prod.mk.inj hexchange
  rw [← hendpoint]
  exact ⟨hprocessed.endpoint, hprocessed.clients.trans hclients, hprocessed.passes⟩

/-- A request that came to an answer other than a refusal was processed, and the next one passes. -/
theorem processed_of_send {r : Response} {w' : World σ} (h : send id url call w = (.ok r, w'))
    (hr : r.status ≠ 401) : w'.endpoint = (process w.endpoint call).2 ∧ w'.clients = w.clients ∧
      (w'.sessionAt id).Passes (isGuarded w.endpoint) := by
  by_cases hpasses : (w.sessionAt id).Passes (isGuarded w.endpoint)
  · obtain ⟨w'', hsend, hprocessed⟩ := send_processed url call hpasses
    rw [h] at hsend
    obtain ⟨-, rfl⟩ := Prod.mk.inj hsend
    exact ⟨hprocessed.endpoint, hprocessed.clients, hprocessed.passes⟩
  unfold send at h
  rw [Run.bind_of_ok (session_apply id w)] at h
  cases hopen : (w.sessionAt id).isOpen with
  | false =>
    rw [hopen] at h
    cases h
  | true =>
    rw [if_neg (by simp [hopen])] at h
    dsimp only at h
    cases hdigest : (w.sessionAt id).digest with
    | some c =>
      rw [hdigest] at h
      obtain ⟨reply, hexchange, -⟩ := ok_of_toResponse h
      exact absurd (passes_of_exchangeDigest hopen hdigest hexchange) hpasses
    | none =>
      rw [hdigest] at h
      dsimp only at h
      -- a server that lets everybody in is no obstacle, so this one has refused the bare request
      cases hguard : isGuarded w.endpoint with
      | false => exact absurd ⟨hopen, by simp [hdigest], by simp [hguard]⟩ hpasses
      | true =>
        generalize (Url.ofText url).normal.text = url at h
        obtain ⟨hsent, hkept⟩ := exchange_challenged (w := w) id ⟨url, call, none⟩ (by simp [hguard])
        rw [Run.bind_of_ok hsent, if_pos (by rfl)] at h
        obtain ⟨found, w₁, hsigned, h⟩ := Run.ok_of_bind h
        cases found with
        | none =>
          cases h
          exact absurd rfl hr
        | some c =>
          obtain ⟨reply, hexchange, -⟩ := ok_of_toResponse h
          have hprocessed := processed_of_signIn (w := w.exchanging id ⟨url, call, none⟩) hopen
            hsigned hexchange
          rw [hkept, hguard] at hprocessed
          exact hprocessed

end Session

theorem Operation.finite_address (address : Address) : address.model.hasNonFinite = false := by
  obtain ⟨segments⟩ := address
  change Json.hasNonFinite.nonFiniteItem (segments.map _) = false
  induction segments with
  | nil => rfl
  | cons segment segments ih => exact ih

theorem Json.nonFiniteItem_append (xs ys : List Json) : hasNonFinite.nonFiniteItem (xs ++ ys) =
    (hasNonFinite.nonFiniteItem xs || hasNonFinite.nonFiniteItem ys) := by
  induction xs with
  | nil => rfl
  | cons x xs ih =>
    rw [List.cons_append, hasNonFinite.nonFiniteItem, hasNonFinite.nonFiniteItem, ih, Bool.or_assoc]

namespace Client

open Session

variable {σ : Type} [ManagementServer σ] {w w' : World σ} {client : Nat}

omit [ManagementServer σ] in
/-- Only what JSON text can carry is executed. -/
theorem finite_of_execute [Endpoint σ] {op : Operation} {o : Outcome}
    (h : execute client (.obj op) w = (.ok o, w')) : (Json.obj op).hasNonFinite = false := by
  unfold execute at h
  rw [Run.bind_of_ok (client_apply client w)] at h
  cases hfinite : (Json.obj op).hasNonFinite with
  | false => rfl
  | true =>
    rw [hfinite] at h
    split at h <;> cases h

omit [ManagementServer σ] in
/-- An operation that has an outcome was sent by an open client, and its response had this outcome. -/
theorem send_of_execute [Endpoint σ] {op : Operation} {o : Outcome}
    (h : execute client (.obj op) w = (.ok o, w')) :
    (w.clientAt client).isClosed = false ∧ ∃ response,
      send (w.clientAt client).session (w.clientAt client).baseUrl (.operation (.obj op)) w =
        (.ok response, w') ∧ (w.clientAt client).resultOf response = .ok o := by
  have hfinite := finite_of_execute h
  unfold execute at h
  rw [Run.bind_of_ok (client_apply client w)] at h
  cases hclosed : (w.clientAt client).isClosed with
  | true =>
    rw [hclosed] at h
    cases h
  | false =>
    rw [if_neg (by simp [hclosed])] at h
    dsimp only at h
    rw [if_neg (by simp [hfinite])] at h
    obtain ⟨response, w₁, hsent, hresult⟩ := Run.ok_of_bind h
    obtain ⟨hreported, rfl⟩ := Run.ok_of_ofExcept hresult
    refine ⟨rfl, response, ?_, hreported⟩
    rw [Run.tryCatch_apply] at hsent
    rcases hs : send (w.clientAt client).session (w.clientAt client).baseUrl
      (.operation (.obj op)) w with ⟨fault | response', w₂⟩
    · rw [hs] at hsent
      cases fault <;> cases hsent
    · rw [hs] at hsent
      exact hsent

/-- After an operation that has an outcome the next one passes, whatever it took to have this one
processed. -/
theorem passes_of_execute {op : Operation} {o : Outcome} (hd : (w.clientAt client).isDomain = false)
    (h : execute client (.obj op) w = (.ok o, w'))
    (hguard : isGuarded w'.endpoint = isGuarded w.endpoint) : w'.Passes client := by
  obtain ⟨hclosed, response, hsend, hreported⟩ := send_of_execute h
  have hstatus : response.status ≠ 401 := by
    intro hrefused
    unfold resultOf at hreported
    dsimp only at hreported
    rw [hrefused] at hreported
    cases hreported
  obtain ⟨-, hclients, hpasses⟩ := processed_of_send hsend hstatus
  have hclient := World.clientAt_of_clients hclients client
  refine ⟨hclient ▸ hclosed, hclient ▸ hd, ?_⟩
  rw [hclient, hguard]
  exact hpasses

/-- Operations that can be applied one after the other are, when they are sent as one composite. -/
theorem executeRequired_applied {ops : List Operation} {s' : σ} (hw : w.Passes client)
    (hfinite : Json.hasNonFinite.nonFiniteItem (ops.map .obj) = false)
    (happlied : Applied w.endpoint ops s') :
    ∃ o w', executeRequired client (.obj (Composite.build ⟨true, ops.map .obj⟩)) w = (.ok o, w') ∧
      w'.endpoint = s' := by
  have hsuccess := composite_isSuccessful_iff.2 ⟨s', happlied⟩
  rw [← perform_composite] at hsuccess
  obtain ⟨w', hexecute, -⟩ := execute_passing hw
    ((Composite.hasNonFinite_build _).trans hfinite) (isSome_of_isSuccessful hsuccess)
  obtain ⟨hp, -⟩ := execute_performs hexecute
  rw [perform_composite] at hp hsuccess
  exact ⟨_, w', executeRequired_of_execute hexecute hsuccess,
    (applied_of_composite hp hsuccess).unique happlied⟩

end Client

end ServerDeploy
