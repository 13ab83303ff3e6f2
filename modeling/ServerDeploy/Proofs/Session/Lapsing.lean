import ServerDeploy.Proofs.Session.Plan
import ServerDeploy.Proofs.Session.Reaching

/-! Requests that end in a fault. Whatever was sent for one, its last reply carries no management
result: it was lost, it was a refusal, or there is nothing in it to be read. An operation that must
succeed, and that was sent, therefore ends in a fault exactly when the call did not succeed. -/

namespace ServerDeploy

variable {σ : Type} [Endpoint σ]

/-- What was asked determines what was answered. -/
theorem Conversation.unique {s t t' : σ} {xs ys : List Exchange} (h : Conversation s xs t)
    (h' : Conversation s ys t') (hasked : xs.map (·.request) = ys.map (·.request)) : xs = ys := by
  induction h generalizing ys with
  | nil =>
    cases h' with
    | nil => rfl
    | cons => cases hasked
  | @cons s s' t x rest hx _ ih =>
    cases h' with
    | nil => cases hasked
    | @cons _ s'' _ y more hy hmore =>
      obtain ⟨hrequest, hrest⟩ := List.cons.inj hasked
      change x.request = y.request at hrequest
      rw [hrequest] at hx
      obtain ⟨hreply, rfl⟩ := Prod.mk.inj (hx.symm.trans hy)
      obtain rfl : x = y := by
        cases x
        cases y
        dsimp only at hrequest hreply
        rw [hrequest, hreply]
      rw [ih hmore hrest]

theorem World.Follows.unique {w w' : World σ} {xs ys : List Exchange} (h : w.Follows xs w')
    (h' : w.Follows ys w') : xs = ys :=
  h.endpoint.unique h'.endpoint (List.append_cancel_left (h.requests.symm.trans h'.requests))

theorem Run.Speaks.and {α : Type} {body : Run σ α} {Q R : Except Fault α → List Exchange → Prop}
    (h : Speaks body Q) (h' : Speaks body R) : Speaks body fun r talk => Q r talk ∧ R r talk := by
  intro w
  obtain ⟨talk, hf, hq⟩ := h w
  obtain ⟨talk', hf', hr⟩ := h' w
  rw [talkOf_exchanges] at hf hf'
  obtain rfl := hf.unique hf'
  exact ⟨talk, by simpa using hf, hq, hr⟩

omit [Endpoint σ] in
theorem World.Fresh.reaches {w : World σ} {client : Nat} (h : w.Fresh client) : w.Reaches client :=
  ⟨h.isClosed, h.isOpen, by simp [h.digest], by simp⟩

/-- The management result that a response carries, if there is one in it. -/
def Response.report? (r : Response) : Option Outcome :=
  let read : Json → Option Outcome
    | .obj members => if (Members.get? Outcome.outcomeKey members).isSome then some members else none
    | _ => none
  if r.status == 401 then none
  else match r.body with
    | .json v => read v
    | .text s => (Json.parse? s).bind read

theorem Client.resultOf_eq_ok {d : Client} {r : Response} {o : Outcome} :
    d.resultOf r = .ok o ↔ r.report? = some o := by
  unfold resultOf Response.report?
  dsimp only
  split
  · simp
  · cases r.body with
    | json v =>
      cases v with
      | obj members => dsimp only; split <;> simp
      | null | bool | int | num | str | arr => simp
    | text s =>
      dsimp only
      cases Json.parse? s with
      | none => simp
      | some v =>
        cases v with
        | obj members => dsimp only [Option.bind_some]; split <;> simp
        | null | bool | int | num | str | arr => simp

namespace Session

theorem EndsIn.unique {talk : List Exchange} {reply reply' : Reply} (h : EndsIn talk reply)
    (h' : EndsIn talk reply') : reply = reply' := by
  obtain ⟨x, hx, rfl⟩ := h
  obtain ⟨y, hy, rfl⟩ := h'
  rw [Option.some.inj (hx.symm.trans hy)]

theorem EndsIn.of_cons {talk : List Exchange} {x : Exchange} {reply : Reply}
    (h : EndsIn (x :: talk) reply) : talk = [] ∧ x.reply = reply ∨ EndsIn talk reply := by
  obtain ⟨y, hy, hr⟩ := h
  cases talk with
  | nil =>
    cases hy
    exact .inl ⟨rfl, hr⟩
  | cons z talk => exact .inr ⟨y, by rwa [List.getLast?_cons_cons] at hy, hr⟩

/-- No management result comes with the reply. -/
def Fruitless (reply : Reply) : Prop := (toResponse reply).report? = none

theorem fruitless_of_refusal {reply : Reply} (h : isRefusal reply = true) : Fruitless reply := by
  cases reply with
  | answer status body =>
    have hstatus : (status == 401) = true := h
    unfold Fruitless toResponse Response.report?
    dsimp only
    rw [if_pos hstatus]
  | challenge => rfl
  | lost => cases h
  | interrupted => cases h

theorem fruitless_of_undelivered {reply : Reply} {e : Fault} (h : delivered reply = .error e) :
    Fruitless reply := by
  cases reply with
  | answer => cases h
  | challenge => cases h
  | lost => rfl
  | interrupted => rfl

/-- If the request ends in a fault, there was no result in the last reply to it. -/
def Lapses {α : Type} (r : Except Fault α) (talk : List Exchange) : Prop :=
  ∀ e, r = .error e → ∀ reply, EndsIn talk reply → Fruitless reply

theorem lapses_ok {α : Type} (v : α) (talk : List Exchange) :
    Lapses (.ok v : Except Fault α) talk := nofun

theorem lapses_nothing {α : Type} (r : Except Fault α) : Lapses r [] := by
  rintro e - reply ⟨x, hx, -⟩
  cases hx

theorem Lapses.after {α : Type} {r : Except Fault α} {x : Exchange} {rest : List Exchange}
    (hx : isRefusal x.reply = true) (h : Lapses r rest) : Lapses r (x :: rest) := by
  intro e he reply hends
  rcases hends.of_cons with ⟨-, rfl⟩ | hends
  · exact fruitless_of_refusal hx
  · exact h e he reply hends

theorem Lapses.error {α β : Type} {e : Fault} {talk : List Exchange}
    (h : Lapses (.error e : Except Fault α) talk) (e' : Fault) :
    Lapses (.error e' : Except Fault β) talk :=
  fun _ _ => h e rfl

theorem exchange_lapses (id : Nat) (request : Request) :
    Run.Speaks (exchange id request : Run σ Reply)
      fun r talk => Goes 1 request.call Eq r talk ∧ Lapses r talk := by
  refine (exchange_speaks id request).and fun w => ?_
  refine ⟨[⟨request, (Endpoint.answer w.endpoint request).1⟩], ?_, fun e he reply hends => ?_⟩
  · rw [exchange_apply, talkOf_exchanges]
    exact w.follows_exchanging id request
  · rw [exchange_apply] at he
    obtain ⟨_, hx, rfl⟩ := hends
    cases hx
    exact fruitless_of_undelivered he

theorem exchangeAs_lapses (id : Nat) (c : Credentials) (url : String) (call : Call) :
    Run.Speaks (exchangeAs id c url call : Run σ Reply)
      fun r talk => Goes 1 call Eq r talk ∧ Lapses r talk := by
  unfold exchangeAs
  split
  · exact exchange_lapses _ _
  · exact Run.speaks_throw ⟨goes_error _ _ _ _, lapses_nothing _⟩

theorem answerChallenge_lapses (id : Nat) (c : Credentials) (url : String) (call : Call)
    (x : Exchange) : Run.Speaks (answerChallenge id c url call x.reply : Run σ Reply)
      fun r more => Lapses r ([x] ++ more) := by
  unfold answerChallenge
  split
  · next hx =>
    have hr : isRefusal x.reply = true := by rw [hx]; rfl
    refine (silent_session id).then (fun s => ?_) fun e => (lapses_nothing _).after hr
    refine (silent_setSession id _).then (fun _ => ?_) fun e => (lapses_nothing _).after hr
    exact (exchangeAs_lapses id c url call).weaken fun r more h => h.2.after hr
  · exact Run.speaks_pure (lapses_ok _ _)

theorem exchangeDigest_lapses (id : Nat) (c : Credentials) (url : String) (call : Call) :
    Run.Speaks (exchangeDigest id c url call : Run σ Reply) Lapses := by
  unfold exchangeDigest
  refine (silent_session id).then (fun s => ?_) fun e => lapses_nothing _
  refine .branch (exchangeAs_lapses id c url call) (exchange_lapses id _) (fun reply talk h => ?_)
    fun e talk h => h.2
  obtain ⟨x, rfl, -, rfl⟩ := h.1.single
  exact answerChallenge_lapses id c url call x

theorem send_lapses (id : Nat) (url : String) (call : Call) :
    Run.Speaks (send id url call : Run σ Response) Lapses := by
  have digest (c : Credentials) (url : String) :
      Run.Speaks (toResponse <$> exchangeDigest id c url call : Run σ Response) Lapses := by
    rw [← bind_pure_comp]
    exact (exchangeDigest_lapses id c url call).bind (fun _ _ _ => Run.speaks_pure (lapses_ok _ _))
      fun e talk h => h.error e
  unfold send
  refine (silent_session id).then (fun s => Run.speaks_guard (lapses_nothing _) ?_)
    fun e => lapses_nothing _
  split
  · exact digest _ _
  · refine (exchange_lapses id _).bind (fun reply talk h => ?_) fun e talk h => h.2.error e
    obtain ⟨x, rfl, -, rfl⟩ := h.1.single
    split
    · next hx =>
      refine (silent_signIn id).then (fun found => ?_) fun e => (lapses_nothing _).after hx
      split
      · exact Run.speaks_pure (lapses_ok _ _)
      · exact (digest _ _).weaken fun r more h => h.after hx
    · exact Run.speaks_pure (lapses_ok _ _)

end Session

namespace ClientCall

variable {c : ClientCall} {o o' : Outcome}

theorem Reports.unique (h : c.Reports o) (h' : c.Reports o') : o = o' := by
  obtain ⟨reply, hends, d, hd⟩ := h
  obtain ⟨reply', hends', d', hd'⟩ := h'
  obtain rfl := hends.unique hends'
  exact Option.some.inj ((Client.resultOf_eq_ok.1 hd).symm.trans (Client.resultOf_eq_ok.1 hd'))

end ClientCall

namespace Client

open Session

variable {client : Nat} {op : Operation} {w : World σ}

theorem execute_lapses (client : Nat) (op : Json) :
    Run.Speaks (execute client op : Run σ Outcome) Lapses := by
  unfold execute
  refine (silent_client client).then (fun c => ?_) fun e => lapses_nothing _
  refine Run.speaks_guard (lapses_nothing _) ?_
  split
  · next members =>
    refine Run.speaks_guard (lapses_nothing _) ?_
    have sent := (send_speaks (σ := σ) c.session c.baseUrl (.operation (.obj members))).and
      (send_lapses c.session c.baseUrl (.operation (.obj members)))
    have named (handler : Fault → Run σ Response) (hhandler : ∀ e, ∃ e', handler e = throw e') :
        Run.Speaks (tryCatch (send c.session c.baseUrl (.operation (.obj members))) handler)
          fun r talk => (∀ response, r = .ok response →
            ∃ reply, EndsIn talk reply ∧ response = toResponse reply) ∧ Lapses r talk := by
      refine sent.tryCatch (fun response talk h => ⟨h.1.2.2, h.2⟩) fun e talk h => ?_
      obtain ⟨e', he'⟩ := hhandler e
      rw [he']
      exact Run.speaks_throw ⟨nofun, by simpa using h.2.error e'⟩
    refine (named _ fun e => by cases e <;> exact ⟨_, rfl⟩).bind (fun response talk h => ?_)
      fun e talk h => h.2.error e
    -- the response was received, and it is reading it that fails
    obtain ⟨reply, hends, rfl⟩ := h.1 response rfl
    refine Run.speaks_ofExcept fun e he reply' hends' => ?_
    rw [List.append_nil] at hends'
    obtain rfl := hends.unique hends'
    refine Option.eq_none_iff_forall_not_mem.2 fun o ho => ?_
    rw [resultOf_eq_ok.2 ho] at he
    cases he
  · exact Run.speaks_throw (lapses_nothing _)

theorem not_reports_of_error {id : Nat} {op : Json} {e : Fault} {c : ClientCall} {w' : World σ}
    (h : execute id op w = (.error e, w')) (hf : w.Follows c.talk w') (o : Outcome) :
    ¬c.Reports o := by
  rintro ⟨reply, hends, d, hd⟩
  obtain ⟨talk, hf', hlapses⟩ := (execute_lapses id op).of_eq h
  rw [talkOf_exchanges] at hf'
  obtain rfl := hf.unique hf'
  have hnone : (toResponse reply).report? = none := hlapses e rfl reply hends
  exact absurd ((resultOf_eq_ok.1 hd).symm.trans hnone) nofun

theorem not_succeeded_of_error {id : Nat} {op : Json} {e : Fault} {c : ClientCall} {w' : World σ}
    (h : executeRequired id op w = (.error e, w')) (hf : w.Follows c.talk w') : ¬c.Succeeded := by
  rw [executeRequired_apply] at h
  rcases he : execute id op w with ⟨e' | o, w₁⟩
  · rw [he] at h
    obtain rfl : w₁ = w' := congrArg Prod.snd h
    exact fun ⟨o, ho, _⟩ => not_reports_of_error he hf o ho
  · rw [he] at h
    obtain rfl : w₁ = w' := congrArg Prod.snd h
    obtain ⟨calls, hf', hcalls⟩ := (execute_calls id op).of_eq he
    obtain ⟨c', _, rfl, -, hreports, rfl⟩ := hcalls.ok
    have htalk : c.talk = c'.talk := hf.unique (by simpa using hf')
    rintro ⟨o', ⟨reply, hends, d, hd⟩, hs⟩
    obtain rfl : o = o' := hreports.unique ⟨reply, htalk ▸ hends, d, hd⟩
    have hrequired : o.require = .ok o := if_pos hs
    have herror : o.require = .error e := congrArg Prod.fst h
    rw [hrequired] at herror
    cases herror

/-- The operation ends well exactly when a call was sent for it that has succeeded. -/
theorem executeRequired_settles (id : Nat) (op : Json) :
    Run.Speaks (executeRequired id op : Run σ Outcome) fun r calls =>
      Performs [.operation op] r calls ∧ ((∃ o, r = .ok o) ↔ ∃ c ∈ calls, c.Succeeded) := by
  intro w
  obtain ⟨calls, hf, hperforms⟩ := Run.performs_executeRequired id op w
  refine ⟨calls, hf, hperforms, ?_⟩
  rcases hr : executeRequired id op w with ⟨e | o, w'⟩
  · rw [hr] at hf hperforms
    refine iff_of_false nofun fun ⟨c, hc, hs⟩ => ?_
    rcases hperforms.one_or_none with rfl | ⟨c', rfl, -⟩
    · cases hc
    · obtain rfl := List.mem_singleton.1 hc
      exact not_succeeded_of_error hr (by simpa using hf) hs
  · rw [hr] at hperforms
    obtain ⟨hmade, hall⟩ := hperforms.done o rfl
    obtain ⟨c, hc⟩ := List.exists_mem_of_ne_nil calls (by rintro rfl; cases hmade)
    exact iff_of_true ⟨o, rfl⟩ ⟨c, hc, hall c hc⟩

/-- An operation that must succeed, of a client that reaches the endpoint: it is sent, and it ends
well exactly when the call that was sent has succeeded. -/
theorem executeRequired_reaches (hw : w.Reaches client)
    (hfinite : (Json.obj op).hasNonFinite = false) :
    ∃ c : ClientCall, c.call = .operation (.obj op) ∧
      w.Follows c.talk (executeRequired client (.obj op) w).2 ∧
      ((∃ o, (executeRequired client (.obj op) w).1 = .ok o) ↔ c.Succeeded) := by
  obtain ⟨calls, hf, hperforms, hsettled⟩ := executeRequired_settles client (.obj op) w
  obtain ⟨sent, -, hfollows, -⟩ := execute_reaches hw hfinite
  have htalk : talkOf calls = sent.talk := hf.unique (by rwa [executeRequired_apply])
  rcases hperforms.one_or_none with rfl | ⟨c, rfl, hcall⟩
  · exact absurd htalk.symm sent.sent
  · exact ⟨c, hcall, by simpa using hf, by simpa using hsettled⟩

end Client

end ServerDeploy
