import ServerDeploy.Proofs.Resource.Requests
import ServerDeploy.Session.Connection

/-! What is sent again. The server is looked at until something can be said about it, but a request that
changes something is not repeated when it fails: after it there are only looks and shutdowns. -/

namespace ServerDeploy

open Run

namespace ClientCall

def launchTypeRead : Call := .operation (.obj (Operation.readAttribute "launch-type" .empty))

def stateRead : Call := .operation (.obj (Operation.readAttribute "server-state" .empty))

def shutdownCall : Call := .operation (.obj (Operation.make "shutdown" .empty []))

/-- A look at what the server is or does. -/
def IsProbe (c : ClientCall) : Prop := c.call = launchTypeRead ∨ c.call = stateRead

/-- A call that may be made after anything has failed. -/
def IsClosing (c : ClientCall) : Prop := c.IsProbe ∨ c.call = shutdownCall

/-- How often the server has not turned down the request of a call. -/
def processings (c : ClientCall) : Nat := c.talk.countP fun x => !Session.isRefusal x.reply

theorem processings_le_one (c : ClientCall) : c.processings ≤ 1 := by
  obtain ⟨pre, x, hx⟩ := (List.eq_nil_or_concat c.talk).resolve_left c.sent
  rw [List.concat_eq_append] at hx
  have hpre : pre.countP (fun x => !Session.isRefusal x.reply) = 0 := by
    refine List.countP_eq_zero.mpr fun y hy => ?_
    have hrefused := c.attempts.again y (by rw [hx, List.dropLast_concat]; exact hy)
    simp [hrefused]
  unfold processings
  rw [hx, List.countP_append, hpre, List.countP_singleton]
  split <;> omega

end ClientCall

open ClientCall

/-- After a call that failed, other than a look, there are only looks and shutdowns. -/
def Unrepeated (calls : List ClientCall) : Prop :=
  ∀ before c after, calls = before ++ c :: after →
    c.Succeeded ∨ c.IsProbe ∨ ∀ d ∈ after, d.IsClosing

/-- Nothing is repeated, and with a result nothing but looks has failed. -/
structure Clear {α : Type} (r : Except Fault α) (calls : List ClientCall) : Prop where
  unrepeated : Unrepeated calls
  settled : ∀ v, r = .ok v → ∀ c ∈ calls, c.Succeeded ∨ c.IsProbe

theorem unrepeated_of_settled {calls : List ClientCall} (h : ∀ c ∈ calls, c.Succeeded ∨ c.IsProbe) :
    Unrepeated calls := by
  rintro before c after rfl
  rcases h c (by simp) with hc | hc
  · exact .inl hc
  · exact .inr (.inl hc)

theorem unrepeated_of_closing {calls : List ClientCall} (h : ∀ c ∈ calls, c.IsClosing) :
    Unrepeated calls := by
  rintro before c after rfl
  exact .inr (.inr fun d hd => h d (by simp [hd]))

theorem Unrepeated.of_settled_append {xs ys : List ClientCall}
    (h : ∀ c ∈ xs, c.Succeeded ∨ c.IsProbe) (h' : Unrepeated ys) : Unrepeated (xs ++ ys) := by
  intro before c after hsplit
  rcases List.append_eq_append_iff.mp hsplit with ⟨rest, rfl, hys⟩ | ⟨rest, rfl, hrest⟩
  · exact h' rest c after hys
  · rcases rest with _ | ⟨d, rest⟩
    · exact h' [] c after hrest.symm
    · obtain rfl : c = d := (List.cons.inj hrest).1
      rcases h c (by simp) with hc | hc
      · exact .inl hc
      · exact .inr (.inl hc)

theorem Unrepeated.append_closing {xs ys : List ClientCall} (h : Unrepeated xs)
    (h' : ∀ c ∈ ys, c.IsClosing) : Unrepeated (xs ++ ys) := by
  intro before c after hsplit
  rcases List.append_eq_append_iff.mp hsplit with ⟨rest, rfl, hys⟩ | ⟨rest, rfl, hrest⟩
  · exact .inr (.inr fun d hd => h' d (by simp [hys, hd]))
  · rcases rest with _ | ⟨d, rest⟩
    · exact .inr (.inr fun d hd => h' d (by rw [← List.nil_append ys, ← hrest]; simp [hd]))
    · obtain ⟨rfl, rfl⟩ := List.cons.inj hrest
      rcases h before c rest rfl with hc | hc | hc
      · exact .inl hc
      · exact .inr (.inl hc)
      · refine .inr (.inr fun d hd => ?_)
        rcases List.mem_append.mp hd with hd | hd
        · exact hc d hd
        · exact h' d hd

namespace Clear

variable {α β : Type}

theorem nothing (r : Except Fault α) : Clear r [] := ⟨unrepeated_of_settled (by simp), by simp⟩

theorem of_successes {r : Except Fault α} {calls : List ClientCall}
    (h : ∀ c ∈ calls.dropLast, c.Succeeded) (hdone : ∀ v, r = .ok v → ∀ c ∈ calls, c.Succeeded) :
    Clear r calls where
  unrepeated := by
    rintro before c after rfl
    rcases after with _ | ⟨d, after⟩
    · exact .inr (.inr (by simp))
    · exact .inl (h c (by simp [List.dropLast_append_of_ne_nil]))
  settled v hv c hc := .inl (hdone v hv c hc)

theorem of_performs {plan : List Call} {r : Except Fault α} {calls : List ClientCall}
    (h : Performs plan r calls) : Clear r calls :=
  of_successes h.successes fun v hv => (h.done v hv).2

theorem append {v : α} {r : Except Fault β} {xs ys : List ClientCall} (h : Clear (.ok v) xs)
    (h' : Clear r ys) : Clear r (xs ++ ys) where
  unrepeated := .of_settled_append (h.settled v rfl) h'.unrepeated
  settled u hu c hc := by
    rcases List.mem_append.mp hc with hc | hc
    · exact h.settled v rfl c hc
    · exact h'.settled u hu c hc

end Clear

namespace Run

variable {σ : Type} [Endpoint σ] {α β : Type}

/-- All calls of a computation are of one kind, however it ends. -/
def OnlyMakes (P : ClientCall → Prop) (body : Run σ α) : Prop :=
  Speaks body fun _ calls => ∀ c ∈ calls, P c

abbrev OnlyLooks (body : Run σ α) : Prop := OnlyMakes IsProbe body

section

variable {P : ClientCall → Prop}

theorem Silent.only {body : Run σ α} (h : Silent body) : OnlyMakes P body :=
  fun w => ⟨[], h w, by simp⟩

theorem OnlyMakes.bind {body : Run σ α} {next : α → Run σ β} (h : OnlyMakes P body)
    (hnext : ∀ v, OnlyMakes P (next v)) : OnlyMakes P (body >>= next) :=
  Speaks.bind h (fun v _ hcalls => (hnext v).weaken fun _ _ hmore c hc =>
    (List.mem_append.mp hc).elim (hcalls c) (hmore c)) fun _ _ hcalls => hcalls

theorem OnlyMakes.tryCatch {body : Run σ α} {handler : Fault → Run σ α} (h : OnlyMakes P body)
    (hh : ∀ e, OnlyMakes P (handler e)) : OnlyMakes P (tryCatch body handler) :=
  Speaks.tryCatch h (fun _ _ hcalls => hcalls) fun e _ hcalls => (hh e).weaken fun _ _ hmore c hc =>
    (List.mem_append.mp hc).elim (hcalls c) (hmore c)

theorem OnlyMakes.weaken {Q : ClientCall → Prop} {body : Run σ α} (h : OnlyMakes P body)
    (hPQ : ∀ c, P c → Q c) : OnlyMakes Q body :=
  Speaks.weaken h fun _ _ hcalls c hc => hPQ c (hcalls c hc)

end

theorem OnlyMakes.clear {body : Run σ α} (h : OnlyLooks body) : Speaks body Clear :=
  Speaks.weaken h fun _ _ hcalls =>
    have hsettled := fun c hc => .inr (hcalls c hc)
    ⟨unrepeated_of_settled hsettled, fun _ _ => hsettled⟩

theorem clear_bind {body : Run σ α} {next : α → Run σ β} (h : Speaks body Clear)
    (hnext : ∀ v, Speaks (next v) Clear) : Speaks (body >>= next) Clear :=
  h.bind (fun v _ hcalls => (hnext v).weaken fun _ _ hmore => hcalls.append hmore)
    fun _ _ hcalls => ⟨hcalls.unrepeated, nofun⟩

theorem Silent.clear {body : Run σ α} (h : Silent body) : Speaks body Clear :=
  fun w => ⟨[], h w, .nothing _⟩

theorem silent_sleep (milliseconds : Nat) : Silent (sleep milliseconds : Run σ Unit) :=
  fun _ => .quiet rfl rfl rfl rfl

theorem retryFrom_only {P : ClientCall → Prop} (policy : RetryPolicy) {body : Run σ α}
    (h : OnlyMakes P body) (left attempt : Nat) :
    OnlyMakes P (retryFrom policy body left attempt) := by
  induction left generalizing attempt with
  | zero => exact h
  | succ left ih =>
    refine h.tryCatch fun fault => ?_
    split
    · exact (silent_sleep _).only.bind fun _ => ih (attempt + 1)
    · exact (silent_throw _).only

theorem only_of_calls {call : Call} {reported : α → Outcome → Prop} {body : Run σ α}
    (h : Speaks body (Client.Calls call reported)) : OnlyMakes (fun c => c.call = call) body :=
  Speaks.weaken h fun _ _ hcalls => by
    rcases hcalls with ⟨rfl, -⟩ | ⟨c, rfl, hcall, -⟩
    · simp
    · simpa using hcall

theorem clear_of_performs {plan : List Call} {body : Run σ α} (h : Speaks body (Performs plan)) :
    Speaks body Clear := h.weaken fun _ _ => .of_performs

end Run

variable {σ : Type} [Endpoint σ]

namespace Connection

theorem silent_update (f : Connection → Connection) : Silent (update f : Run σ Unit) :=
  fun _ => .quiet rfl rfl rfl rfl

theorem silent_hostAddress : Silent (hostAddress : Run σ String) := by
  have silent_lookUp : Silent (lookUp : Run σ Lookup) := fun _ => .quiet rfl rfl rfl rfl
  refine silent_get.bind fun w => ?_
  dsimp only
  split
  · exact silent_pure _
  · refine (silent_update _).bind fun _ => silent_lookUp.bind fun answer => ?_
    refine (silent_update _).bind fun _ => ?_
    cases answer with
    | found address => exact (silent_update _).bind fun _ => silent_pure _
    | unknown => exact silent_throw _
    | lost fault => exact silent_throw _

theorem silent_closeClient (id : Nat) : Silent (Run.closeClient id : Run σ Unit) := by
  refine (Client.silent_client id).bind fun c => ?_
  split
  · refine (Session.silent_session _).bind fun s => (Session.silent_setSession _ _).bind fun _ => ?_
    exact fun _ => .quiet rfl rfl rfl rfl
  · exact silent_pure _

theorem silent_close : Silent (close : Run σ Unit) := by
  refine silent_get.bind fun w => ?_
  split
  · exact (silent_closeClient _).bind fun _ => silent_update _
  · exact silent_pure _

theorem readLaunchType_looks (client : Nat) : OnlyLooks (readLaunchType client : Run σ String) := by
  refine retryFrom_only _ (OnlyMakes.bind ?_ fun _ => (silent_pure _).only) _ _
  exact (only_of_calls (Client.executeRequired_calls client _)).weaken fun _ => .inl

/-- A client is had by looking what kind of server there is. -/
theorem getClient_looks : OnlyLooks (getClient : Run σ Nat) := by
  have silent_newClient (host : String) (port : Int) (scheme : String) (source : CredentialSource) :
      Silent (Run.newClient host port scheme source : Run σ Nat) := fun _ => .quiet rfl rfl rfl rfl
  have silent_upgradeClient (id : Nat) : Silent (Run.upgradeClient id : Run σ Nat) :=
    fun _ => .quiet rfl rfl rfl rfl
  refine silent_get.only.bind fun w => ?_
  split
  · exact (silent_pure _).only
  refine silent_hostAddress.only.bind fun host => silent_get.only.bind fun w => ?_
  refine (silent_newClient _ _ _ _).only.bind fun id => ?_
  refine OnlyMakes.bind ((readLaunchType_looks id).tryCatch fun fault => ?_) fun launchType => ?_
  · exact ((silent_closeClient id).bind fun _ => silent_throw _).only
  have held (id : Nat) : Silent (do
      update fun c => { c with client := some id, state := .connected }
      pure id : Run σ Nat) := (silent_update _).bind fun _ => silent_pure _
  dsimp only
  split
  · exact ((silent_upgradeClient id).bind held).only
  · exact ((silent_pure id).bind held).only

theorem checkPreconditions_clear (ifExists ifNotExists : Option String) :
    Speaks (checkPreconditions ifExists ifNotExists : Run σ Bool) Clear := by
  have existing (id : Nat) (address : String) : Speaks (resourceExists id address : Run σ Bool) Clear := by
    unfold resourceExists
    split
    · exact (silent_throw _).clear
    · exact clear_bind (clear_of_performs (Existence.check_performs id _)) fun _ =>
        (silent_pure _).clear
  unfold checkPreconditions
  refine speaks_guard (.nothing _) ?_
  split
  · exact (silent_pure _).clear
  refine clear_bind getClient_looks.clear fun id => ?_
  refine clear_bind (Client.silent_client id).clear fun c => ?_
  split
  · exact (silent_pure _).clear
  split
  · exact existing id _
  · exact clear_bind (existing id _) fun _ => (silent_pure _).clear

end Connection

end ServerDeploy
