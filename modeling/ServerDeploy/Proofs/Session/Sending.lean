import ServerDeploy.Proofs.Session.Asking

/-! One request of a session. It goes out at most three times, and only after a refusal does it go out
again: bare, bare once more where credentials have just been found, and with credentials. -/

namespace ServerDeploy

variable {σ : Type} [Endpoint σ]

namespace Session

/-- The exchanges of one request: all carry it, and it goes out again only after a refusal. -/
structure Attempts (call : Call) (talk : List Exchange) : Prop where
  same : ∀ x ∈ talk, x.request.call = call
  again : ∀ x ∈ talk.dropLast, isRefusal x.reply = true

theorem Attempts.none (call : Call) : Attempts call [] := ⟨by simp, by simp⟩

theorem Attempts.one {call : Call} {x : Exchange} (h : x.request.call = call) :
    Attempts call [x] := ⟨by simp [h], by simp⟩

theorem Attempts.cons {call : Call} {x : Exchange} {rest : List Exchange}
    (h : x.request.call = call) (hx : isRefusal x.reply = true) (hrest : Attempts call rest) :
    Attempts call (x :: rest) where
  same := by
    intro y hy
    rcases List.mem_cons.mp hy with rfl | hy
    · exact h
    · exact hrest.same y hy
  again := by
    cases rest with
    | nil => simp
    | cons z rest =>
      intro y hy
      rcases List.mem_cons.mp hy with rfl | hy
      · exact hx
      · exact hrest.again y hy

def EndsIn (talk : List Exchange) (reply : Reply) : Prop := ∃ x, talk.getLast? = some x ∧ x.reply = reply

theorem EndsIn.cons {talk : List Exchange} {reply : Reply} (h : EndsIn talk reply) (x : Exchange) :
    EndsIn (x :: talk) reply := by
  obtain ⟨y, hy, hr⟩ := h
  exact ⟨y, by simp [List.getLast?_cons, hy], hr⟩

/-- How a request can go that goes out at most `n` times. -/
def Goes {α : Type} (n : Nat) (call : Call) (ended : α → Reply → Prop) (r : Except Fault α)
    (talk : List Exchange) : Prop :=
  Attempts call talk ∧ talk.length ≤ n ∧ ∀ v, r = .ok v → ∃ reply, EndsIn talk reply ∧ ended v reply

theorem exchange_speaks (id : Nat) (request : Request) :
    Run.Speaks (exchange id request : Run σ Reply) (Goes 1 request.call Eq) := by
  intro w
  refine ⟨[⟨request, (Endpoint.answer w.endpoint request).1⟩], ?_, ⟨Attempts.one rfl, by simp, ?_⟩⟩
  · rw [exchange_apply, talkOf_exchanges]
    exact w.follows_exchanging id request
  · intro v hv
    rw [exchange_apply] at hv
    exact ⟨_, ⟨_, rfl, rfl⟩, eq_of_delivered hv⟩

theorem exchangeAs_speaks (id : Nat) (c : Credentials) (url : String) (call : Call) :
    Run.Speaks (exchangeAs id c url call : Run σ Reply) (Goes 1 call Eq) := by
  unfold exchangeAs
  split
  · exact exchange_speaks _ _
  · exact Run.speaks_throw ⟨.none _, by simp, by simp⟩

theorem Goes.after {α : Type} {n : Nat} {call : Call} {ended : α → Reply → Prop}
    {r : Except Fault α} {x : Exchange} {rest : List Exchange} (h : x.request.call = call)
    (hx : isRefusal x.reply = true) (hrest : Goes n call ended r rest) :
    Goes (n + 1) call ended r (x :: rest) := by
  obtain ⟨ha, hn, he⟩ := hrest
  refine ⟨ha.cons h hx, by simpa using hn, ?_⟩
  intro v hv
  obtain ⟨reply, hl, hr⟩ := he v hv
  exact ⟨reply, hl.cons x, hr⟩

theorem Goes.once {α : Type} {call : Call} {ended : α → Reply → Prop} {r : Except Fault α}
    {x : Exchange} (h : x.request.call = call) (hr : ∀ v, r = .ok v → ended v x.reply) :
    Goes 1 call ended r [x] :=
  ⟨.one h, by simp, fun v hv => ⟨x.reply, ⟨x, rfl, rfl⟩, hr v hv⟩⟩

theorem Goes.mono {α : Type} {m n : Nat} {call : Call} {ended : α → Reply → Prop}
    {r : Except Fault α} {talk : List Exchange} (h : Goes m call ended r talk) (hmn : m ≤ n) :
    Goes n call ended r talk := ⟨h.1, Nat.le_trans h.2.1 hmn, h.2.2⟩

theorem Goes.single {call : Call} {reply : Reply} {talk : List Exchange}
    (h : Goes 1 call Eq (.ok reply) talk) :
    ∃ x, talk = [x] ∧ x.request.call = call ∧ x.reply = reply := by
  obtain ⟨ha, hn, he⟩ := h
  obtain ⟨_, ⟨x, hx, hr⟩, rfl⟩ := he reply rfl
  obtain ⟨pre, rfl⟩ := List.getLast?_eq_some_iff.mp hx
  have hpre : pre = [] := by simpa using hn
  subst hpre
  exact ⟨x, rfl, ha.same x (by simp), hr⟩

theorem goes_error {α : Type} (n : Nat) (call : Call) (ended : α → Reply → Prop) (e : Fault) :
    Goes n call ended (.error e) [] :=
  ⟨.none _, by simp, by simp⟩

/-- A request that was challenged is gone out once more, and any other is done. -/
theorem answerChallenge_speaks (id : Nat) (c : Credentials) (url : String) {call : Call}
    {x : Exchange} (hc : x.request.call = call) :
    Run.Speaks (answerChallenge id c url call x.reply : Run σ Reply)
      fun r more => Goes 2 call Eq r ([x] ++ more) := by
  unfold answerChallenge
  split
  · next hx =>
    have hr : isRefusal x.reply = true := by rw [hx]; rfl
    refine (silent_session id).then (fun s => ?_) fun e => (goes_error 1 _ _ e).after hc hr
    refine (silent_setSession id _).then (fun _ => ?_) fun e => (goes_error 1 _ _ e).after hc hr
    exact (exchangeAs_speaks id c url call).weaken fun r more hm => hm.after hc hr
  · refine Run.speaks_pure (Goes.mono (Goes.once hc ?_) (by omega))
    intro v hv
    cases hv
    rfl

theorem exchangeDigest_speaks (id : Nat) (c : Credentials) (url : String) (call : Call) :
    Run.Speaks (exchangeDigest id c url call : Run σ Reply) (Goes 2 call Eq) := by
  unfold exchangeDigest
  refine (silent_session id).then (fun s => ?_) (goes_error _ _ _)
  -- what is sent first need not end the matter: a challenge is answered with credentials
  refine .branch (exchangeAs_speaks id c url call) (exchange_speaks id _) (fun reply talk h => ?_)
    fun e talk h => ⟨h.1, by have := h.2.1; omega, by simp⟩
  obtain ⟨x, rfl, hc, rfl⟩ := h.single
  exact answerChallenge_speaks id c url hc

theorem silent_resolve (source : CredentialSource) :
    Run.Silent (Credentials.resolve source : Run σ (Option Credentials)) := by
  intro w
  obtain ⟨is, h, -⟩ := Credentials.resolve_changes source w
  rw [h.world]
  exact .quiet rfl rfl rfl rfl

theorem silent_signIn (id : Nat) : Run.Silent (signIn id : Run σ (Option Credentials)) := by
  have silent_note (e : ConnectionEvent) : Run.Silent (Run.note e : Run σ Unit) :=
    fun _ => .quiet rfl rfl rfl rfl
  have called (source : CredentialSource) :
      Run.Silent (callSource id source : Run σ (Option Credentials)) := by
    refine (silent_note _).bind fun _ => (silent_resolve source).bind fun c => ?_
    cases c with
    | none => exact Run.silent_pure _
    | some c =>
      exact (silent_session id).bind fun s => (silent_setSession id _).bind fun _ =>
        (silent_note _).bind fun _ => Run.silent_pure _
  unfold signIn
  refine (silent_session id).bind fun s => ?_
  split
  · exact Run.silent_pure _
  · exact called _

/-- A request goes out at most three times, and a response is made of the last reply. -/
theorem send_speaks (id : Nat) (url : String) (call : Call) :
    Run.Speaks (send id url call : Run σ Response)
      (Goes 3 call fun response reply => response = toResponse reply) := by
  have digest : ∀ c url, Run.Speaks (toResponse <$> exchangeDigest id c url call : Run σ Response)
      (Goes 2 call fun response reply => response = toResponse reply) := by
    intro c url
    rw [← bind_pure_comp]
    refine (exchangeDigest_speaks id c url call).bind (fun reply talk h => ?_) fun e talk h =>
      ⟨h.1, h.2.1, by simp⟩
    refine Run.speaks_pure ⟨by simpa using h.1, by simpa using h.2.1, ?_⟩
    intro v hv
    cases hv
    obtain ⟨last, hl, rfl⟩ := h.2.2 reply rfl
    exact ⟨reply, by simpa using hl, rfl⟩
  unfold send
  refine (silent_session id).then (fun s => Run.speaks_guard (goes_error _ _ _ _) ?_)
    (goes_error _ _ _)
  split
  · exact (digest _ _).weaken fun r talk h => h.mono (by omega)
  · refine (exchange_speaks id _).bind (fun reply talk h => ?_) fun e talk h =>
      ⟨h.1, by have := h.2.1; omega, by simp⟩
    obtain ⟨x, rfl, hc, rfl⟩ := h.single
    have answered : Goes 3 call (fun response reply => response = toResponse reply)
        (.ok (toResponse x.reply)) [x] :=
      (Goes.once hc fun v hv => by cases hv; rfl).mono (by omega)
    split
    · next hx =>
      refine (silent_signIn id).then (fun found => ?_) fun e => (goes_error 2 _ _ e).after hc hx
      split
      · exact Run.speaks_pure answered
      · exact (digest _ _).weaken fun r more hm => hm.after hc hx
    · exact Run.speaks_pure answered

end Session

end ServerDeploy
