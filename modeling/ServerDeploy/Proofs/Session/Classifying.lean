import ServerDeploy.Proofs.Session.Concluding
import ServerDeploy.Proofs.Session.Shutting
import ServerDeploy.Proofs.Session.Survey
import ServerDeploy.Proofs.World.Retrying

/-! How a new client is classified. The launch type is read up to three times, again only after the
transport has failed; with a client that stays unclassified nothing of the connection has changed but the
address of its host, and the session that was opened is closed. -/

namespace ServerDeploy

open Run ClientCall

def launchTypeOperation : Operation := Operation.readAttribute "launch-type" .empty

/-- How an attempt to read the launch type can end. -/
inductive ProbeEnding where
  | told (o : Outcome)
  | failed (o : Outcome)
  | denied
  | unreadable (status : Nat) (shown : String)
  | lost (reason : String)
  | interrupted
  /-- After refusals the read was not sent again. -/
  | withheld (e : Fault)

namespace ProbeEnding

def unreachable (endpoint reason : String) : Fault :=
  .deploy (.connection (.unreachable "read-attribute" endpoint reason))

def refusal (text : String) : Fault := .deploy (.operationFailed text .null)

def result (endpoint : String) : ProbeEnding → Except Fault String
  | told o => .ok o.resultText
  | failed o => .error (.deploy o.toError)
  | denied => .error (refusal ("Authentication failed for " ++ endpoint))
  | unreadable status shown => .error (refusal ("Unexpected response from " ++ endpoint ++ " (HTTP " ++
      toString status ++ "): " ++ shown))
  | lost reason => .error (unreachable endpoint reason)
  | interrupted => .error .interrupted
  | withheld (.transport reason) => .error (unreachable endpoint reason)
  | withheld e => .error e

def isTransient : ProbeEnding → Bool
  | lost _ => true
  | withheld e => e.isTransient
  | told _ | failed _ | denied | unreadable _ _ | interrupted => false

theorem isTransient_iff (ending : ProbeEnding) (endpoint : String) :
    ending.isTransient = true ↔ ∃ e, ending.result endpoint = .error e ∧ e.isTransient = true := by
  cases ending with
  | told o => simp [isTransient, result]
  | failed o => simp [isTransient, result, Outcome.toError, Fault.isTransient]
  | denied => simp [isTransient, result, refusal, Fault.isTransient]
  | unreadable status shown => simp [isTransient, result, refusal, Fault.isTransient]
  | lost reason => simp [isTransient, result, unreachable, Fault.isTransient]
  | interrupted => simp [isTransient, result, Fault.isTransient]
  | withheld e => cases e <;> simp [isTransient, result, unreachable, Fault.isTransient]

variable {σ : Type} [Endpoint σ]

/-- An attempt from one world to another, with its talk, ends so. -/
inductive Of (source : CredentialSource) (w : World σ) (talk : List Exchange) (w' : World σ) :
    ProbeEnding → Prop
  | told {reply : Reply} {o : Outcome} (hends : Session.EndsIn talk reply)
      (ho : (Session.toResponse reply).report? = some o) (hs : o.isSuccessful = true) :
      Of source w talk w' (told o)
  | failed {reply : Reply} {o : Outcome} (hends : Session.EndsIn talk reply)
      (ho : (Session.toResponse reply).report? = some o) (hs : o.isSuccessful = false) :
      Of source w talk w' (failed o)
  | denied {reply : Reply} (hends : Session.EndsIn talk reply)
      (hrefused : Session.isRefusal reply = true) : Of source w talk w' denied
  | unreadable {status : Nat} {body : Body} {shown : String}
      (hends : Session.EndsIn talk (.answer status body)) (hstatus : status ≠ 401)
      (hnone : (⟨status, body⟩ : Response).report? = none) :
      Of source w talk w' (unreadable status shown)
  | lost {reason : String} (hends : Session.EndsIn talk (.lost reason)) :
      Of source w talk w' (lost reason)
  | interrupted (hends : Session.EndsIn talk .interrupted) : Of source w talk w' interrupted
  | withheld {e : Fault} (hrefused : ∀ x ∈ talk, Session.isRefusal x.reply = true)
      (he : Session.Held source w talk w' e) : Of source w talk w' (withheld e)

end ProbeEnding

namespace Client

def told : Except Fault Outcome → Except Fault String
  | .ok o => if o.isSuccessful then .ok o.resultText else .error (.deploy o.toError)
  | .error e => .error e

variable {σ : Type} [Endpoint σ] {client : Nat} {w w' : World σ} {talk : List Exchange}
  {source : CredentialSource} {reply : Reply}

theorem ending_of_response (c : Client) (hends : Session.EndsIn talk reply)
    (hanswer : Session.delivered reply = .ok reply) : ∃ ending, ProbeEnding.Of source w talk w' ending ∧
      told (c.resultOf (Session.toResponse reply)) = ending.result c.endpoint := by
  cases hreport : (Session.toResponse reply).report? with
  | some o =>
    rw [resultOf_eq_ok.2 hreport]
    cases hs : o.isSuccessful with
    | true => exact ⟨_, .told hends hreport hs, if_pos hs⟩
    | false => exact ⟨_, .failed hends hreport hs, if_neg (by simp [hs])⟩
  | none =>
    cases reply with
    | answer status body =>
      by_cases hstatus : status = 401
      · refine ⟨_, .denied hends (by simp [Session.isRefusal, hstatus]), ?_⟩
        rw [resultOf_refused (by exact hstatus)]
        rfl
      · obtain ⟨shown, hresult⟩ := resultOf_unreadable (d := c) hreport hstatus
        refine ⟨.unreadable status shown, .unreadable hends hstatus hreport, ?_⟩
        rw [hresult]
        rfl
    | challenge =>
      refine ⟨_, .denied hends rfl, ?_⟩
      rw [resultOf_refused rfl]
      rfl
    | lost reason => cases hanswer
    | interrupted => cases hanswer

theorem ending_of_reply (c : Client) (hends : Session.EndsIn talk reply) :
    ∃ ending, ProbeEnding.Of source w talk w' ending ∧
      told (c.received launchTypeOperation ((Session.delivered reply).map Session.toResponse)) =
        ending.result c.endpoint := by
  cases reply with
  | answer status body => exact ending_of_response c hends rfl
  | challenge => exact ending_of_response c hends rfl
  | lost reason => exact ⟨_, .lost hends, rfl⟩
  | interrupted => exact ⟨_, .interrupted hends, rfl⟩

end Client

namespace Connection

variable {σ : Type} [Endpoint σ] {client : Nat} {w w' : World σ} {endpoint : String}
  {source : CredentialSource}

def readOnce (client : Nat) : Run σ String := do
  let r ← Client.executeRequired client (.obj launchTypeOperation)
  pure r.resultText

theorem readLaunchType_eq (client : Nat) :
    (readLaunchType client : Run σ String) = retryFrom .launchType (readOnce client) 2 1 := rfl

theorem finite_launchTypeOperation : (Json.obj launchTypeOperation).hasNonFinite = false := by decide

theorem readOnce_of_send {r : Except Fault Response} (hw : w.Reaches client)
    (h : Session.send (w.clientAt client).session (w.clientAt client).baseUrl launchTypeRead w =
      (r, w')) :
    readOnce client w = (Client.told ((w.clientAt client).received launchTypeOperation r), w') := by
  have hexecute := Client.execute_of_send hw.isClosed finite_launchTypeOperation h
  unfold readOnce
  cases hreceived : (w.clientAt client).received launchTypeOperation r with
  | error e =>
    rw [hreceived] at hexecute
    rw [bind_apply, Client.executeRequired_apply, hexecute]
    rfl
  | ok o =>
    rw [hreceived] at hexecute
    rw [bind_apply, Client.executeRequired_of_result hexecute]
    unfold Outcome.require Client.told
    by_cases hs : o.isSuccessful = true
    · dsimp only
      rw [if_pos hs, if_pos hs]
      rfl
    · dsimp only
      rw [if_neg hs, if_neg hs]

theorem readOnce_steps (client : Nat) : Stepping (readOnce client : Run σ String) :=
  (Client.executeRequired_steps client _).bind fun _ => (still_pure _).stepping

end Connection

/-- An attempt to read the launch type, with the call that is made for it and its ending. -/
structure Probing (σ : Type) where
  attempt : Attempt σ String
  call : ClientCall
  ending : ProbeEnding

namespace Probing

variable {σ : Type} [Endpoint σ]

/-- The attempt is the one call, which ends as it does for the attempt, and nothing is waited for. -/
structure Goes (endpoint : String) (source : CredentialSource) (p : Probing σ) : Prop where
  read : p.call.call = launchTypeRead
  talk : p.attempt.start.Follows p.call.talk p.attempt.finish
  ending : p.ending.Of source p.attempt.start p.call.talk p.attempt.finish
  result : p.attempt.result = p.ending.result endpoint
  sleeps : p.attempt.finish.sleeps = p.attempt.start.sleeps

theorem Goes.missed_iff {endpoint : String} {source : CredentialSource} {p : Probing σ}
    (h : p.Goes endpoint source) : p.attempt.Missed ↔ p.ending.isTransient = true := by
  rw [p.ending.isTransient_iff endpoint, ← h.result]
  rfl

end Probing

/-- A client that reaches its endpoint, with the source of its credentials. -/
structure World.Asks {σ : Type} (w : World σ) (client : Nat) (endpoint : String)
    (source : CredentialSource) : Prop where
  reaches : w.Reaches client
  endpoint : (w.clientAt client).endpoint = endpoint
  source : (w.sessionAt (w.clientAt client).session).source = source

namespace Connection

variable {σ : Type} [Endpoint σ] {client : Nat} {w w' : World σ} {endpoint : String}
  {source : CredentialSource}

theorem unwaiting_readOnce (client : Nat) : Unwaiting (readOnce client : Run σ String) := by
  have required : Unwaiting (Client.executeRequired client (.obj launchTypeOperation) : Run σ Outcome) :=
    (Client.unwaiting_execute client _).bind fun _ => (still_ofExcept _).unwaiting
  exact required.bind fun _ => (still_pure _).unwaiting

theorem readOnce_goes (hw : w.Asks client endpoint source) : ∃ p : Probing σ,
    p.attempt = .of (readOnce client) w ∧ p.Goes endpoint source := by
  obtain ⟨hreaches, rfl, hsource⟩ := hw
  obtain ⟨c, hcall, hfollows, -⟩ := Client.execute_reaches hreaches finite_launchTypeOperation
  rcases hsend : Session.send (w.clientAt client).session (w.clientAt client).baseUrl launchTypeRead w
    with ⟨r, w'⟩
  have hread := readOnce_of_send hreaches hsend
  obtain ⟨talk, hsent, r', rfl, hconcludes⟩ := Session.send_sends hreaches.session.isOpen hsend
  -- what is said for the request is all that the call consists of
  rw [Client.execute_of_send hreaches.isClosed finite_launchTypeOperation hsend] at hfollows
  obtain rfl : c.talk = talk := hfollows.unique hsent
  rw [hsource] at hconcludes
  have hending : ∃ ending : ProbeEnding, ending.Of source w c.talk w' ∧
      (readOnce client w).1 = ending.result (w.clientAt client).endpoint := by
    rw [hread]
    cases hconcludes with
    | replied hends hr =>
      rw [hr]
      exact Client.ending_of_reply _ hends
    | @withheld e hrefused he hr =>
      refine ⟨.withheld e, .withheld hrefused he, ?_⟩
      rw [hr]
      cases e <;> rfl
  obtain ⟨ending, hends, hresult⟩ := hending
  refine ⟨⟨.of (readOnce client) w, c, ending⟩, rfl, hcall, ?_, ?_, hresult, ?_⟩
  · rw [Attempt.of, hread]
    exact hsent
  · rw [Attempt.of, hread]
    exact hends
  · exact unwaiting_readOnce client w

/-- An attempt that misses leaves the client able to ask once more. -/
theorem asks_of_missed (hw : w.Asks client endpoint source)
    (hmissed : (Attempt.of (readOnce client) w).Missed) (milliseconds : Nat) :
    ((readOnce client w).2.sleep milliseconds).Asks client endpoint source := by
  have hkept := Session.keeps_of_steps (readOnce_steps client w)
  have hclient := World.clientAt_of_clients hkept.clients client
  have hpasses : ((readOnce client w).2.sessionAt (w.clientAt client).session).Passes false := by
    obtain ⟨e, he, htransient⟩ := hmissed
    rcases hsend : Session.send (w.clientAt client).session (w.clientAt client).baseUrl
      launchTypeRead w with ⟨r, w'⟩
    have hread := readOnce_of_send hw.reaches hsend
    rw [Attempt.of, hread] at he
    rw [hread]
    refine Session.passes_of_send_sent hw.reaches.session.isOpen hsend ?_
    -- credentials that are no texts are not worth another attempt
    rintro rfl
    cases he
    cases htransient
  have hsource := World.sessionAt_congr hkept.source (w.clientAt client).session
  rw [← hclient] at hpasses hsource
  exact ⟨⟨(congrArg Client.isClosed hclient).trans hw.reaches.isClosed, hpasses⟩,
    (congrArg Client.endpoint hclient).trans hw.endpoint, hsource.trans (hclient ▸ hw.source)⟩

theorem probings_of_tries {policy : RetryPolicy} {left k : Nat} {missed : List (Attempt σ String)}
    {final : Attempt σ String} (h : Tries policy (readOnce client) left k w missed final)
    (hw : w.Asks client endpoint source) : ∃ (before : List (Probing σ)) (last : Probing σ),
      before.map Probing.attempt = missed ∧ last.attempt = final ∧
      (∀ p ∈ before ++ [last], p.Goes endpoint source) ∧
      w.Follows (talkOf ((before ++ [last]).map Probing.call)) final.finish := by
  induction h with
  | @last left k w _ =>
    obtain ⟨p, hp, hgoes⟩ := readOnce_goes hw
    refine ⟨[], p, rfl, hp, by simpa using hgoes, ?_⟩
    have htalk := hgoes.talk
    rw [hp] at htalk
    change w.Follows p.call.talk _ at htalk
    simpa using htalk
  | @again left k w rest final hmissed hrest ih =>
    obtain ⟨p, hp, hgoes⟩ := readOnce_goes hw
    obtain ⟨before, last, rfl, rfl, hall, hfollows⟩ := ih (asks_of_missed hw hmissed _)
    refine ⟨p :: before, last, by rw [List.map_cons, hp], rfl, ?_, ?_⟩
    · exact List.forall_mem_cons.2 ⟨hgoes, hall⟩
    · have htalk := hgoes.talk
      rw [hp] at htalk
      change w.Follows p.call.talk (readOnce client w).2 at htalk
      have hslept : (readOnce client w).2.Follows [] ((readOnce client w).2.sleep (policy.wait k)) :=
        .quiet rfl rfl rfl rfl
      have hfirst := htalk.trans hslept
      rw [List.append_nil] at hfirst
      exact hfirst.trans hfollows

/-- The world with a host that was found, which the connection remembers. -/
def located (w : World σ) (host : String) (lookups : List Lookup) (count : Nat)
    (journal : List ConnectionEvent) : World σ :=
  { w with
    connection := { w.connection with address := some host }
    lookups := lookups
    lookupCount := count
    journal := journal }

omit [Endpoint σ] in
theorem hostAddress_found {host : String} (h : (hostAddress w).1 = .ok host) :
    ∃ lookups count journal, hostAddress w = (.ok host, located w host lookups count journal) := by
  cases haddress : w.connection.address with
  | some address =>
    rw [hostAddress_of_address haddress] at h ⊢
    cases h
    refine ⟨w.lookups, w.lookupCount, w.journal, ?_⟩
    rw [located, ← haddress]
  | none =>
    obtain ⟨answer, rest, hlookup⟩ :=
      lookUp_apply { w with connection := { w.connection with state := .resolvingHost } }
    unfold hostAddress at h ⊢
    rw [Run.bind_of_ok (Run.get_apply w), haddress] at h ⊢
    dsimp only [update] at h ⊢
    rw [Run.bind_of_ok (Run.modify_apply _ _), Run.bind_of_ok hlookup,
      Run.bind_of_ok (Run.modify_apply _ _)] at h ⊢
    cases answer with
    | found address =>
      cases h
      exact ⟨_, _, _, rfl⟩
    | unknown => cases h
    | lost fault => cases h

/-- The launch type is read up to three times, again exactly when the transport has failed and fewer than
three attempts were made, a second and then two seconds later. -/
structure Tried (w : World σ) (endpoint : String) (source : CredentialSource)
    (before : List (Probing σ)) (last : Probing σ) : Prop where
  atMost : (before ++ [last]).length ≤ 3
  goes : ∀ p ∈ before ++ [last], p.Goes endpoint source
  again : ∀ i p, (before ++ [last])[i]? = some p →
    (i + 1 < (before ++ [last]).length ↔ p.ending.isTransient = true ∧ i + 1 < 3)
  next : ∀ i p q, (before ++ [last])[i]? = some p → (before ++ [last])[i + 1]? = some q →
    q.attempt.start = p.attempt.finish.sleep (if i = 0 then 1000 else 2000)
  talk : w.Follows (talkOf ((before ++ [last]).map Probing.call)) last.attempt.finish
  sleeps : last.attempt.finish.sleeps = w.sleeps ++ [1000, 2000].take before.length

theorem Tried.of_quiet {before : List (Probing σ)} {last : Probing σ}
    (h : Tried w' endpoint source before last) (hquiet : w.Follows [] w')
    (hsleeps : w'.sleeps = w.sleeps) : Tried w endpoint source before last where
  atMost := h.atMost
  goes := h.goes
  again := h.again
  next := h.next
  talk := hquiet.trans h.talk
  sleeps := by rw [h.sleeps, hsleeps]

theorem wait_launchType (i : Nat) (hi : i < 2) :
    RetryPolicy.launchType.wait (1 + i) = if i = 0 then 1000 else 2000 := by
  obtain rfl | rfl : i = 0 ∨ i = 1 := by omega
  all_goals decide +kernel

theorem waits_launchType {n : Nat} (hn : n ≤ 2) :
    ((List.range n).map fun i => RetryPolicy.launchType.wait (1 + i)) = [1000, 2000].take n := by
  have hall : ((List.range 2).map fun i => RetryPolicy.launchType.wait (1 + i)) = [1000, 2000] := by
    decide +kernel
  rw [← hall, ← List.map_take, List.take_range, Nat.min_eq_left hn]

theorem readLaunchType_tried (hw : w.Asks client endpoint source) : ∃ before last,
    Tried w endpoint source before last ∧
      readLaunchType client w = (last.attempt.result, last.attempt.finish) := by
  obtain ⟨missed, final, htries, hread⟩ := retryFrom_tries .launchType (readOnce client) 2 1 w
  rw [← readLaunchType_eq] at hread
  obtain ⟨before, last, rfl, rfl, hgoes, htalk⟩ := probings_of_tries htries hw
  have hlength := htries.length_le
  rw [List.length_map] at hlength
  have attempted {i : Nat} {p : Probing σ} (hp : (before ++ [last])[i]? = some p) :
      (before.map Probing.attempt ++ [last.attempt])[i]? = some p.attempt := by
    rw [← List.map_singleton, ← List.map_append, List.getElem?_map, hp]
    rfl
  refine ⟨before, last, ⟨?_, hgoes, ?_, ?_, htalk, ?_⟩, hread⟩
  · rw [List.length_append, List.length_singleton]
    omega
  · intro i p hp
    have hagain := htries.again_iff (attempted hp)
    rw [(hgoes p (List.mem_of_getElem? hp)).missed_iff, List.length_append, List.length_map] at hagain
    have hfewer : i + 1 < 3 ↔ i < 2 := by omega
    rw [hfewer, List.length_append]
    exact hagain
  · intro i p q hp hq
    obtain ⟨hi, -⟩ := List.getElem?_eq_some_iff.1 hq
    rw [List.length_append, List.length_singleton] at hi
    rw [htries.start_of_next (attempted hp) (attempted hq), wait_launchType i (by omega)]
  · have hlast := htries.sleeps (unwaiting_readOnce client) (attempted List.getElem?_concat_length)
    rw [waits_launchType hlength] at hlast
    rw [(hgoes last (by simp)).sleeps, hlast]

/-- How a client is had with a host that was found. If the launch type is told, the client is held, one
for a domain exactly if that was told. Any other ending of the last attempt is how it all ends: the
connection has gained nothing but the address of the host, and the session is closed. -/
structure Classifies (w : World σ) (host : String) (before : List (Probing σ)) (last : Probing σ)
    (r : Except Fault Nat) (w' : World σ) : Prop where
  tried : Tried w (host ++ ":" ++ toString w.connection.port) w.connection.source before last
  talk : last.attempt.finish.Follows [] w'
  sleeps : w'.sleeps = last.attempt.finish.sleeps
  classified : ∀ launchType, last.attempt.result = .ok launchType → ∃ id, r = .ok id ∧
    (w'.clientAt id).isDomain = (launchType == "DOMAIN") ∧
    w'.connection =
      { w.connection with address := some host, client := some id, state := .connected } ∧
    w'.sessions.map Session.isOpen = w.sessions.map Session.isOpen ++ [true]
  failed : ∀ e, last.attempt.result = .error e → r = .error e ∧
    w'.connection = { w.connection with address := some host } ∧
    w'.sessions.map Session.isOpen = w.sessions.map Session.isOpen ++ [false]

omit [Endpoint σ] in
theorem asks_withClient (w : World σ) (host : String) : (w.withClient host).Asks w.clients.length
    (host ++ ":" ++ toString w.connection.port) w.connection.source := by
  have hclient : (w.withClient host).clientAt w.clients.length = ⟨w.sessions.length, host,
      w.connection.port, "http://" ++ host ++ ":" ++ toString w.connection.port ++ "/management",
      false, false⟩ := by simp [World.clientAt, World.withClient]
  have hsession : (w.withClient host).sessionAt w.sessions.length =
      ⟨true, w.connection.source, none, false⟩ := by simp [World.sessionAt, World.withClient]
  have hfresh : (w.withClient host).Fresh w.clients.length :=
    ⟨by rw [hclient], by rw [hclient], by rw [hclient, hsession], by rw [hclient, hsession]⟩
  exact ⟨hfresh.reaches, by rw [hclient]; rfl, by rw [hclient, hsession]⟩

omit [Endpoint σ] in
/-- Closing the newest client shuts its session, which is the last one. -/
theorem isOpen_closing_withClient {w w₂ : World σ} {host : String}
    (hkept : (w.withClient host).Keeps w₂) : (w₂.closing w.clients.length).sessions.map Session.isOpen =
      w.sessions.map Session.isOpen ++ [false] := by
  have hsession : (w₂.clientAt w.clients.length).session = w.sessions.length := by
    rw [World.clientAt_of_clients hkept.clients]
    simp [World.clientAt, World.withClient]
  unfold World.closing World.withSession
  dsimp only
  rw [List.map_set, hkept.isOpen, hsession]
  simp [World.withClient, List.set_append_right]

theorem classifies_of_address {w : World σ} {host : String} (hnone : w.connection.client = none)
    (haddress : w.connection.address = some host) : ∃ before last,
      Classifies w host before last (getClient w).1 (getClient w).2 := by
  obtain ⟨before, last, htried, hread⟩ := readLaunchType_tried (asks_withClient w host)
  have hkept := Session.keeps_of_steps (readLaunchType_steps w.clients.length (w.withClient host))
  rw [getClient_of_unheld hnone, hostAddress_of_address haddress]
  dsimp only
  rw [hread] at hkept ⊢
  replace htried := htried.of_quiet (w := w) (.quiet rfl rfl rfl rfl) rfl
  have hconnection : last.attempt.finish.connection = { w.connection with address := some host } := by
    rw [hkept.connection, ← haddress]
    rfl
  have hopened : last.attempt.finish.sessions.map Session.isOpen =
      w.sessions.map Session.isOpen ++ [true] := by
    rw [hkept.isOpen]
    simp [World.withClient]
  have hclient : last.attempt.finish.clientAt w.clients.length =
      (w.withClient host).clientAt w.clients.length :=
    World.clientAt_of_clients hkept.clients w.clients.length
  have hnew := (asks_withClient w host).reaches.isClosed
  rw [← hclient] at hnew
  refine ⟨before, last, ?_⟩
  cases hresult : last.attempt.result with
  | error e =>
    dsimp only
    rw [Run.closeClient_open hnew]
    refine ⟨htried, .quiet rfl rfl rfl rfl, rfl, fun _ hok => ?_, fun e' he => ?_⟩
    · rw [hresult] at hok
      cases hok
    · rw [hresult] at he
      cases he
      exact ⟨rfl, hconnection, isOpen_closing_withClient hkept⟩
  | ok launchType =>
    have held (id : Nat) {w' : World σ}
        (hdomain : (w'.clientAt id).isDomain = (launchType == "DOMAIN"))
        (hworld : ∃ clients, w' = { last.attempt.finish.holding id with clients := clients }) :
        Classifies w host before last (.ok id) w' := by
      obtain ⟨clients, rfl⟩ := hworld
      refine ⟨htried, .quiet rfl rfl rfl rfl, rfl, fun kind hok => ⟨id, rfl, ?_, ?_, hopened⟩,
        fun _ he => ?_⟩
      · rw [hresult] at hok
        cases hok
        exact hdomain
      · unfold World.holding
        rw [hconnection]
      · rw [hresult] at he
        cases he
    dsimp only
    split
    · next hdomain =>
      refine held _ ?_ ⟨_, rfl⟩
      simp [hdomain, World.clientAt, World.holding, World.withDomainClient]
    · next hstandalone =>
      refine held w.clients.length ?_ ⟨_, rfl⟩
      have hclient' : (last.attempt.finish.holding w.clients.length).clientAt w.clients.length =
        last.attempt.finish.clientAt w.clients.length := rfl
      rw [hclient', hclient]
      simp [hstandalone, World.clientAt, World.withClient]

theorem getClient_classifies {w : World σ} {host : String} (hnone : w.connection.client = none)
    (hhost : (hostAddress w).1 = .ok host) : ∃ before last,
      Classifies w host before last (getClient w).1 (getClient w).2 := by
  obtain ⟨lookups, count, journal, hfound⟩ := hostAddress_found hhost
  -- once the address is known, a client is made from there just as from here
  have hsame : getClient w = getClient (located w host lookups count journal) := by
    rw [getClient_of_unheld hnone, hfound, getClient_of_unheld (by exact hnone),
      hostAddress_of_address rfl]
  rw [hsame]
  obtain ⟨before, last, h⟩ :=
    classifies_of_address (w := located w host lookups count journal) hnone rfl
  exact ⟨before, last, h.tried.of_quiet (.quiet rfl rfl rfl rfl) rfl, h.talk, h.sleeps, h.classified,
    h.failed⟩

/-- A connection of which the first request is lost, to what turns out to be a domain. -/
def regained : World Script :=
  .quiet [.lost "connection refused",
    .answer 200 (.json (.obj [("outcome", .str "success"), ("result", .str "DOMAIN")]))]
    (.ofText "/work") (.ofText "/home")

theorem getClient_classifies_regained : (getClient regained).1.toOption = some 1 ∧
    (getClient regained).2.sleeps = [1000] ∧ ∃ before last,
      Classifies regained "127.0.0.1" before last (getClient regained).1 (getClient regained).2 :=
  ⟨by decide +kernel, by decide +kernel, getClient_classifies rfl rfl⟩

end Connection

end ServerDeploy
