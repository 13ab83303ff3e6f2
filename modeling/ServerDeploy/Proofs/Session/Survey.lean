import ServerDeploy.Proofs.Session.Repetition
import ServerDeploy.Proofs.Session.Sparing

/-! What is asked before a goal may go on. The kind of server is read with its retries, and on a
standalone server the parent of an address is read once; a domain is not asked for resources. -/

namespace ServerDeploy

open Run ClientCall

variable {σ : Type} [Endpoint σ]

namespace World

/-- The world with one more client, which has a session of its own. -/
def withClient (w : World σ) (host : String) : World σ :=
  { w with
    sessions := w.sessions ++ [⟨true, w.connection.source, none, false⟩]
    clients := w.clients ++ [⟨w.sessions.length, host, w.connection.port,
      "http://" ++ host ++ ":" ++ toString w.connection.port ++ "/management", false, false⟩] }

def withDomainClient (w : World σ) (id : Nat) : World σ :=
  { w with clients := w.clients ++ [{ w.clientAt id with isDomain := true, isClosed := false }] }

def holding (w : World σ) (id : Nat) : World σ :=
  { w with connection := { w.connection with client := some id, state := .connected } }

end World

/-- Reads of the launch type, of which with a result the last one has reported it. -/
structure Probes (most : Nat) (r : Except Fault String) (probes : List ClientCall) : Prop where
  same : ∀ c ∈ probes, c.call = launchTypeRead
  atMost : probes.length ≤ most
  read : ∀ v, r = .ok v → ∃ c o, probes.getLast? = some c ∧ c.Reports o ∧ o.isSuccessful = true ∧
    o.resultText = v

namespace Probes

variable {m n : Nat} {r : Except Fault String} {e : Fault} {xs ys : List ClientCall}

theorem nothing (n : Nat) (e : Fault) : Probes n (.error e) [] := ⟨by simp, by simp, nofun⟩

theorem mono (h : Probes m r xs) (hmn : m ≤ n) : Probes n r xs :=
  ⟨h.same, Nat.le_trans h.atMost hmn, h.read⟩

theorem after (h : Probes n r ys) (hfirst : Probes m (.error e) xs) : Probes (m + n) r (xs ++ ys) where
  same c hc := (List.mem_append.mp hc).elim (hfirst.same c) (h.same c)
  atMost := by
    rw [List.length_append]
    exact Nat.add_le_add hfirst.atMost h.atMost
  read v hv := by
    obtain ⟨c, o, hlast, hread⟩ := h.read v hv
    exact ⟨c, o, by rw [List.getLast?_append, hlast, Option.some_or], hread⟩

end Probes

namespace Connection

theorem readLaunchType_probes (client : Nat) :
    Speaks (readLaunchType client : Run σ String) (Probes 3) := by
  have once : Speaks (do
      let r ← Client.executeRequired client (.obj (Operation.readAttribute "launch-type" .empty))
      pure r.resultText : Run σ String) (Probes 1) := by
    refine (Client.executeRequired_calls client _).bind (fun r calls h => ?_) fun e calls h => ?_
    · obtain ⟨c, o, rfl, hcall, hreports, rfl, hs⟩ := h.ok
      refine speaks_pure ⟨?_, by simp, fun v hv => ⟨c, r, rfl, hreports, hs, Except.ok.inj hv⟩⟩
      intro d hd
      obtain rfl : d = c := by simpa using hd
      exact hcall
    · rcases h with ⟨rfl, -⟩ | ⟨c, rfl, hcall, -⟩
      · exact .nothing 1 e
      · refine ⟨fun d hd => ?_, by simp, nofun⟩
        obtain rfl : d = c := by simpa using hd
        exact hcall
  -- each failure worth another attempt leaves one attempt less
  have tried (left attempt : Nat) : Speaks (retryFrom .launchType (do
      let r ← Client.executeRequired client (.obj (Operation.readAttribute "launch-type" .empty))
      pure r.resultText) left attempt : Run σ String) (Probes (1 + left)) := by
    induction left generalizing attempt with
    | zero => exact once
    | succ left ih =>
      refine once.tryCatch (fun v calls h => h.mono (by omega)) fun fault calls h => ?_
      split
      · refine (silent_sleep _).then (fun _ => ?_) fun e => ?_
        · exact (ih (attempt + 1)).weaken fun r more hmore => (hmore.after h).mono (by omega)
        · exact ((Probes.nothing 0 e).after h).mono (by omega)
      · exact speaks_throw (((Probes.nothing 0 fault).after h).mono (by omega))
  exact tried 2 1

/-- How a client is made: the new one is classified, and closed again where that fails. -/
theorem getClient_of_unheld {w : World σ} (hnone : w.connection.client = none) : getClient w =
    match hostAddress w with
    | (.error e, w₁) => (.error e, w₁)
    | (.ok host, w₁) =>
      match readLaunchType w₁.clients.length (w₁.withClient host) with
      | (.error e, w₂) => (.error e, (Run.closeClient w₁.clients.length w₂).2)
      | (.ok launchType, w₂) =>
        if launchType == "DOMAIN" then (.ok w₂.clients.length,
          (w₂.withDomainClient w₁.clients.length).holding w₂.clients.length)
        else (.ok w₁.clients.length, w₂.holding w₁.clients.length) := by
  unfold getClient
  rw [bind_of_ok (get_apply w), hnone]
  dsimp only
  rw [bind_apply]
  rcases hostAddress w with ⟨e | host, w₁⟩
  · rfl
  have hmade : Run.newClient host w₁.connection.port "http" w₁.connection.source w₁ =
      (.ok w₁.clients.length, w₁.withClient host) := rfl
  dsimp only
  rw [bind_of_ok (get_apply w₁), bind_of_ok hmade, bind_apply, tryCatch_apply]
  rcases readLaunchType w₁.clients.length (w₁.withClient host) with ⟨e | launchType, w₂⟩
  · dsimp only
    rw [bind_of_ok (closeClient_apply _ w₂)]
    rfl
  · dsimp only
    split <;> rfl

theorem held_of_getClient {w w' : World σ} {id : Nat} (h : getClient w = (.ok id, w')) :
    w'.connection.client = some id := by
  cases hheld : w.connection.client with
  | some held =>
    rw [getClient_of_held hheld] at h
    cases h
    exact hheld
  | none =>
    rw [getClient_of_unheld hheld] at h
    rcases hhost : hostAddress w with ⟨e | host, w₁⟩
    · rw [hhost] at h
      cases h
    rw [hhost] at h
    dsimp only at h
    rcases hread : readLaunchType w₁.clients.length (w₁.withClient host) with ⟨e | launchType, w₂⟩
    · rw [hread] at h
      cases h
    rw [hread] at h
    dsimp only at h
    split at h
    · cases h
      rfl
    · cases h
      rfl

/-- A client that is made is of the kind that the last read of the launch type has told. -/
theorem getClient_probes {w : World σ} (hnone : w.connection.client = none) :
    ∃ (kind : Except Fault String) (probes : List ClientCall),
      w.Follows (talkOf probes) (getClient w).2 ∧ Probes 3 kind probes ∧
      ((∃ e, kind = .error e ∧ (getClient w).1 = .error e) ∨
        ∃ launchType id, kind = .ok launchType ∧ (getClient w).1 = .ok id ∧
          ((getClient w).2.clientAt id).isDomain = (launchType == "DOMAIN")) := by
  have hlooked := silent_hostAddress w
  rw [getClient_of_unheld hnone]
  rcases hhost : hostAddress w with ⟨e | host, w₁⟩
  · rw [hhost] at hlooked
    exact ⟨.error e, [], hlooked, .nothing 3 e, .inl ⟨e, rfl, rfl⟩⟩
  rw [hhost] at hlooked
  have hmade : w.Follows [] (w₁.withClient host) := hlooked.trans (.quiet rfl rfl rfl rfl)
  obtain ⟨probes, hread, hprobes⟩ := readLaunchType_probes w₁.clients.length (w₁.withClient host)
  have hkept := Session.keeps_of_steps (readLaunchType_steps w₁.clients.length (w₁.withClient host))
  have hfollows := hmade.trans hread
  dsimp only
  rcases hkind : readLaunchType w₁.clients.length (w₁.withClient host) with ⟨e | launchType, w₂⟩
  · rw [hkind] at hfollows hprobes
    have hclosed := silent_closeClient w₁.clients.length w₂
    exact ⟨.error e, probes, by simpa using hfollows.trans hclosed, hprobes, .inl ⟨e, rfl, rfl⟩⟩
  rw [hkind] at hfollows hprobes hkept
  have hclients : w₂.clients = (w₁.withClient host).clients := hkept.clients
  dsimp only
  refine ⟨.ok launchType, probes, ?_, hprobes, .inr ⟨launchType, ?_⟩⟩
  · split
    · have hheld (id other : Nat) : w₂.Follows [] ((w₂.withDomainClient id).holding other) :=
        .quiet rfl rfl rfl rfl
      simpa using hfollows.trans (hheld _ _)
    · have hheld (id : Nat) : w₂.Follows [] (w₂.holding id) := .quiet rfl rfl rfl rfl
      simpa using hfollows.trans (hheld _)
  · split
    · next hdomain =>
      refine ⟨_, rfl, rfl, ?_⟩
      simp [hdomain, World.clientAt, World.holding, World.withDomainClient]
    · next hstandalone =>
      refine ⟨_, rfl, rfl, ?_⟩
      simp [hstandalone, World.clientAt, World.holding, hclients, World.withClient]

end Connection

/-- A look takes the one read of the parent, and what it finds is what the answer to that lists. -/
theorem Existence.check_reports (client : Nat) (address : Address) :
    Speaks (check client address : Run σ Existence) fun r reads =>
      Performs (requests address) r reads ∧ ∀ e, r = .ok e → ∃ kind name c o,
        address.child? = some (kind, name) ∧ reads = [c] ∧ c.Reports o ∧ o.isSuccessful = true ∧
          ofResult kind name o.result = .ok e := by
  unfold check requests
  split
  · next kind name parent hchild hparent =>
    rw [hparent]
    refine (Client.execute_calls client _).bind (fun o calls h => ?_) fun e calls h => ?_
    · obtain ⟨c, _, rfl, hcall, hreports, rfl⟩ := h.ok
      dsimp only
      split
      · exact speaks_throw ⟨.single hcall nofun, nofun⟩
      · next hs =>
        replace hs : o.isSuccessful = true := by simpa using hs
        refine speaks_ofExcept ⟨.single hcall fun _ _ => ⟨o, hreports, hs⟩, fun e he => ?_⟩
        exact ⟨kind, name, c, o, hchild, rfl, hreports, hs, he⟩
    · rcases h with ⟨rfl, -⟩ | ⟨c, rfl, hcall, -⟩
      · exact ⟨.nothing_of_error _ e, nofun⟩
      · exact ⟨.single hcall nofun, nofun⟩
  · exact speaks_throw ⟨.nothing_of_error _ _, nofun⟩

namespace Connection

/-- The calls of a look for a resource, whose address is a text. -/
def lookRequests (address : String) : List Call :=
  match Address.parse none address with
  | .error _ => []
  | .ok parsed => Existence.requests parsed

/-- A look for the resource at an address text: at most the read of its parent, of which a result tells
whether the child is listed there. -/
structure Looks (address : String) (r : Except Fault Bool) (reads : List ClientCall) : Prop where
  planned : Performs (lookRequests address) r reads
  listed : ∀ found, r = .ok found → ∃ parsed kind name c o count,
    Address.parse none address = .ok parsed ∧ parsed.child? = some (kind, name) ∧ reads = [c] ∧
      c.Reports o ∧ o.isSuccessful = true ∧ Existence.ofResult kind name o.result = .ok ⟨found, count⟩

theorem resourceExists_asks (client : Nat) (address : String) :
    Speaks (resourceExists client address : Run σ Bool) (Looks address) := by
  unfold resourceExists
  cases hparse : Address.parse none address with
  | error part => exact speaks_throw ⟨.nothing_of_error _ _, nofun⟩
  | ok parsed =>
    have hplan : lookRequests address = Existence.requests parsed := by
      unfold lookRequests
      rw [hparse]
    refine (Existence.check_reports client parsed).bind (fun e calls h => ?_) fun e calls h => ?_
    · obtain ⟨kind, name, c, o, hchild, rfl, hreports, hs, hresult⟩ := h.2 e rfl
      obtain ⟨hcalls, hall⟩ := h.1.done e rfl
      refine speaks_pure ⟨?_, fun found hfound => ?_⟩
      · rw [hplan, List.append_nil]
        exact ⟨h.1.begun, h.1.successes, fun _ _ => ⟨hcalls, hall⟩⟩
      · obtain rfl := Except.ok.inj hfound
        exact ⟨parsed, kind, name, c, o, e.childCount, hparse, hchild, rfl, hreports, hs, hresult⟩
    · refine ⟨?_, nofun⟩
      rw [hplan]
      exact ⟨h.1.begun, h.1.successes, nofun⟩

/-- What a goal with one condition asks for: whether its resource exists, if there is a standalone
server that can be asked. -/
def survey (address : String) : Run σ (Option Bool) := do
  let id ← getClient
  if (← Run.client id).isDomain then pure none
  else some <$> resourceExists id address

theorem sparing_survey (address : String) : Sparing (survey address : Run σ (Option Bool)) := by
  refine sparing_getClient.bind fun id => (Client.still_client id).sparing.bind fun c => ?_
  split
  · exact (still_pure _).sparing
  · rw [← bind_pure_comp]
    exact (resourceExists_steps id address).sparing.bind fun _ => (still_pure _).sparing

/-- Whether what was found is what a condition wants. Conditions hold on every domain. -/
def agrees (wanted : Bool) (found : Option Bool) : Bool := found.all (· == wanted)

/-- How a survey goes: there is no client, there is a domain, or a standalone server was asked. -/
inductive Surveys (address : String) :
    Except Fault (Option Bool) → List ClientCall → List ClientCall → Prop
  | unreached {e : Fault} {probes : List ClientCall} (h : Probes 3 (.error e) probes) :
      Surveys address (.error e) probes []
  | domain {probes : List ClientCall} (h : Probes 3 (.ok "DOMAIN") probes) :
      Surveys address (.ok none) probes []
  | standalone {launchType : String} {r : Except Fault Bool} {probes reads : List ClientCall}
      (h : Probes 3 (.ok launchType) probes) (hkind : launchType ≠ "DOMAIN") (hr : Looks address r reads) :
      Surveys address (r.map some) probes reads

theorem survey_surveys {w : World σ} (hnone : w.connection.client = none) (address : String) :
    ∃ probes reads, w.Follows (talkOf (probes ++ reads)) (survey address w).2 ∧
      Surveys address (survey address w).1 probes reads := by
  obtain ⟨kind, probes, hfollows, hprobes, hkind⟩ := getClient_probes hnone
  unfold survey
  rw [bind_apply]
  rcases hclient : getClient w with ⟨e | id, w₁⟩
  · rw [hclient] at hfollows hkind
    obtain ⟨e', rfl, he⟩ | ⟨_, _, -, hid, -⟩ := hkind
    · obtain rfl := Except.error.inj he
      exact ⟨probes, [], by simpa using hfollows, .unreached hprobes⟩
    · cases hid
  rw [hclient] at hfollows hkind
  obtain ⟨_, -, he⟩ | ⟨launchType, id', rfl, hid, hdomain⟩ := hkind
  · cases he
  obtain rfl := Except.ok.inj hid
  dsimp only
  rw [bind_of_ok (Client.client_apply id w₁), hdomain]
  by_cases htype : launchType = "DOMAIN"
  · subst htype
    exact ⟨probes, [], by simpa using hfollows, .domain hprobes⟩
  · rw [if_neg (by simpa using htype), ← bind_pure_comp, bind_apply]
    obtain ⟨reads, hread, hlooks⟩ := resourceExists_asks id address w₁
    have hall : w.Follows (talkOf (probes ++ reads)) (resourceExists id address w₁).2 := by
      rw [talkOf_append]
      exact hfollows.trans hread
    have hsurveyed := Surveys.standalone hprobes htype hlooks
    rcases hr : resourceExists id address w₁ with ⟨e | found, w₂⟩
    all_goals
      rw [hr] at hall hsurveyed
      exact ⟨probes, reads, hall, hsurveyed⟩

variable {address : String} {blank : Option String}

theorem checkPreconditions_existing (hgiven : isGiven (some address) = true)
    (hblank : isGiven blank = false) (w : World σ) : checkPreconditions (some address) blank w =
      ((survey address w).1.map (agrees true), (survey address w).2) := by
  unfold checkPreconditions survey
  simp only [hgiven, hblank, Bool.true_and, Bool.false_eq_true, if_false, if_true, Bool.not_true,
    Bool.false_and, Option.getD_some]
  rw [bind_apply, bind_apply]
  rcases getClient w with ⟨e | id, w₁⟩
  · rfl
  dsimp only
  rw [bind_of_ok (Client.client_apply id w₁), bind_of_ok (Client.client_apply id w₁)]
  split
  · rfl
  rw [← bind_pure_comp, bind_apply]
  rcases resourceExists id address w₁ with ⟨e | found, w₂⟩
  · rfl
  · cases found <;> rfl

theorem checkPreconditions_missing (hgiven : isGiven (some address) = true)
    (hblank : isGiven blank = false) (w : World σ) : checkPreconditions blank (some address) w =
      ((survey address w).1.map (agrees false), (survey address w).2) := by
  unfold checkPreconditions survey
  simp only [hgiven, hblank, Bool.false_and, Bool.false_eq_true, if_false, Bool.not_true,
    Bool.and_false, Option.getD_some]
  rw [bind_apply, bind_apply]
  rcases getClient w with ⟨e | id, w₁⟩
  · rfl
  dsimp only
  rw [bind_of_ok (Client.client_apply id w₁), bind_of_ok (Client.client_apply id w₁)]
  split
  · rfl
  rw [← bind_pure_comp, bind_apply, bind_apply]
  rcases resourceExists id address w₁ with ⟨e | found, w₂⟩
  · rfl
  · cases found <;> rfl

end Connection

end ServerDeploy
