import ServerDeploy.Deployment.Interpretation
import ServerDeploy.Model.Composite
import ServerDeploy.Proofs.Session.Call

/-! Management servers as endpoints. A server executes single operations and composites of them; a
composite is applied as a whole or not at all. A call of a client that gives a result was processed
exactly once, whatever was refused before. -/

namespace ServerDeploy

/-- What a management server is made of. -/
class ManagementServer (σ : Type) where
  /-- Whether requests without credentials are challenged. -/
  isGuarded : σ → Bool
  /-- Executes a single operation. -/
  step : σ → Operation → Outcome × σ
  /-- What is said of a step that succeeded, besides its result. -/
  headers : σ → Operation → Members
  /-- Takes the content of a file. -/
  receive : σ → String → Content → Outcome × σ

namespace ManagementServer

def succeeded (result : Json) : Outcome :=
  (Outcome.outcomeKey, .str "success") ::
    match result with
    | .null => []
    | result => [("result", result)]

def failed (description : Json) : Outcome :=
  [(Outcome.outcomeKey, .str "failed"), (Outcome.failureKey, description)]

def rolledBack (r : Outcome) : Outcome := r ++ [("rolled-back", .bool true)]

def cancelled (number : Nat) : List Json → Members
  | [] => []
  | _ :: rest =>
    (ActionResult.stepKey number, .obj [(Outcome.outcomeKey, .str "cancelled")]) ::
      cancelled (number + 1) rest

variable {σ : Type} [ManagementServer σ]

def stepOf (s : σ) (op : Json) : Outcome × σ :=
  match op with
  | .obj op =>
    match step s op with
    | (r, s') => (if r.isSuccessful then r ++ headers s op else r, s')
  | _ => (failed .null, s)

/-- Executes steps up to the first that fails, and gives their results by key, the state after them
and the first failure. -/
def runSteps (s : σ) (number : Nat) : List Json → Members × σ × Option (String × Json)
  | [] => ([], s, none)
  | op :: rest =>
    let key := ActionResult.stepKey number
    match stepOf s op with
    | (r, s') =>
      if r.isSuccessful then
        match runSteps s' (number + 1) rest with
        | (results, final, failure) => ((key, .obj r) :: results, final, failure)
      else ((key, .obj r) :: cancelled (number + 1) rest, s', some (key, r.failure))

/-- Executes a composite: all of its steps or none. -/
def composite (s : σ) (steps : List Json) : Outcome × σ :=
  match runSteps s 1 steps with
  | (results, final, none) => (succeeded (.obj results), final)
  | (results, _, some (key, description)) =>
    ([(Outcome.outcomeKey, .str "failed"), ("result", .obj results),
      (Outcome.failureKey, .obj [("Composite operation failed and was rolled back. " ++
        "Steps that failed:", .obj [("Operation " ++ key, description)])]),
      ("rolled-back", .bool true)], s)

def compositeSteps? (op : Operation) : Option (List Json) :=
  match op.get? Operation.nameKey, op.get? "steps" with
  | some (.str name), some (.arr steps) => if name = "composite" then some steps else none
  | _, _ => none

def perform (s : σ) (op : Operation) : Outcome × σ :=
  match compositeSteps? op with
  | some steps => composite s steps
  | none =>
    match step s op with
    | (r, s') => (if r.isSuccessful then r else rolledBack r, s')

def reply (r : Outcome) : Reply := .answer (if r.isSuccessful then 200 else 500) (.json (.obj r))

def process (s : σ) (call : Call) : Reply × σ :=
  match call with
  | .operation (.obj op) => let (r, s') := perform s op; (reply r, s')
  | .operation _ => (.answer 400 (.text ""), s)
  | .upload name content => let (r, s') := receive s name content; (reply r, s')

instance (priority := low) : Endpoint σ where
  answer s request :=
    if isGuarded s && request.user.isNone then (.challenge, s) else process s request.call

/-- Operations applied one after the other, each with success. -/
inductive Applied : σ → List Operation → σ → Prop
  | nil (s : σ) : Applied s [] s
  | cons {s s' t : σ} {op : Operation} {rest : List Operation}
      (h : (step s op).1.isSuccessful = true) (hs : (step s op).2 = s') (hrest : Applied s' rest t) :
      Applied s (op :: rest) t

theorem Applied.append {s t u : σ} {xs ys : List Operation} (h : Applied s xs t)
    (h' : Applied t ys u) : Applied s (xs ++ ys) u := by
  induction h with
  | nil s => exact h'
  | cons h hs _ ih => exact .cons h hs (ih h')

theorem Applied.split {s u : σ} {xs ys : List Operation} (h : Applied s (xs ++ ys) u) :
    ∃ t, Applied s xs t ∧ Applied t ys u := by
  induction xs generalizing s with
  | nil => exact ⟨s, .nil s, h⟩
  | cons x xs ih =>
    cases h with
    | cons h hs hrest =>
      obtain ⟨t, hxs, hys⟩ := ih hrest
      exact ⟨t, .cons h hs hxs, hys⟩

theorem stepOf_isSuccessful {s : σ} {op : Operation} :
    (stepOf s (.obj op)).1.isSuccessful = true → (step s op).1.isSuccessful = true := by
  unfold stepOf
  dsimp only
  split
  · next h => exact fun _ => h
  · exact id

theorem applied_of_runSteps {ops : List Operation} {s final : σ} {number : Nat} {results : Members}
    (h : runSteps s number (ops.map .obj) = (results, final, none)) : Applied s ops final := by
  induction ops generalizing s number results with
  | nil =>
    cases h
    exact .nil _
  | cons op ops ih =>
    simp only [List.map_cons, runSteps] at h
    split at h
    · next hs =>
      rcases hrest : runSteps (stepOf s (.obj op)).2 (number + 1) (ops.map .obj) with
        ⟨more, final', failure⟩
      rw [hrest] at h
      cases h
      exact .cons (stepOf_isSuccessful hs) rfl (ih hrest)
    · cases h

/-- A composite that succeeded has applied all its steps. -/
theorem applied_of_composite {ops : List Operation} {s s' : σ} {r : Outcome}
    (h : composite s (ops.map .obj) = (r, s')) (hr : r.isSuccessful = true) : Applied s ops s' := by
  unfold composite at h
  rcases hrun : runSteps s 1 (ops.map .obj) with ⟨results, final, _ | ⟨key, description⟩⟩
  · rw [hrun] at h
    cases h
    exact applied_of_runSteps hrun
  · rw [hrun] at h
    cases h
    cases hr

theorem perform_composite (s : σ) (ops : List Operation) :
    perform s (Composite.build ⟨true, ops.map .obj⟩) = composite s (ops.map .obj) := rfl

theorem process_not_refused (s : σ) (call : Call) :
    Session.isRefusal (process s call).1 = false := by
  have replied : ∀ r : Outcome, Session.isRefusal (reply r) = false := by
    intro r
    unfold reply
    cases r.isSuccessful <;> rfl
  unfold process
  split
  · exact replied _
  · rfl
  · exact replied _

theorem answer_cases (s : σ) (request : Request) :
    Endpoint.answer s request = (.challenge, s) ∨
      Endpoint.answer s request = process s request.call := by
  simp only [Endpoint.answer]
  split
  · exact .inl rfl
  · exact .inr rfl

/-- Refusals leave nothing behind. What was not refused in the end was processed once. -/
theorem process_of_conversation {s s' : σ} {talk : List Exchange} {call : Call} {reply : Reply}
    (h : Conversation s talk s') (ha : Session.Attempts call talk)
    (he : Session.EndsIn talk reply) (hr : Session.isRefusal reply = false) :
    process s call = (reply, s') := by
  -- a refusal keeps the state, so what is left of the conversation starts where this one does
  induction h with
  | nil s =>
    obtain ⟨x, hx, -⟩ := he
    cases hx
  | @cons s s₁ t x rest hx hrest ih =>
    have hcall := ha.same x List.mem_cons_self
    cases rest with
    | nil =>
      obtain ⟨y, hy, rfl⟩ := he
      have hxy : x = y := by simpa using hy
      subst hxy
      cases hrest
      rcases answer_cases s x.request with hc | hp
      · rw [hc] at hx
        rw [← (Prod.mk.inj hx).1] at hr
        cases hr
      · rw [← hcall, ← hp, hx]
    | cons y rest =>
      have hrefused := ha.again x (by simp)
      rcases answer_cases s x.request with hc | hp
      · rw [hc] at hx
        obtain ⟨-, rfl⟩ := Prod.mk.inj hx
        refine ih ⟨fun z hz => ha.same z (.tail _ hz), fun z hz => ha.again z ?_⟩ ?_
        · rw [List.dropLast_cons_cons]
          exact .tail _ hz
        · obtain ⟨z, hz, hzr⟩ := he
          exact ⟨z, by rwa [List.getLast?_cons_cons] at hz, hzr⟩
      · have hp' := process_not_refused s x.request.call
        rw [← hp, hx] at hp'
        rw [hp'] at hrefused
        cases hrefused

theorem not_refused_of_reports {d : Client} {reply : Reply} {o : Outcome}
    (h : d.resultOf (Session.toResponse reply) = .ok o) : Session.isRefusal reply = false := by
  cases reply with
  | answer status body =>
    by_cases hs : status = 401
    · subst hs
      cases h
    · simpa [Session.isRefusal] using hs
  | lost reason => rfl
  | interrupted => rfl
  | challenge => cases h

theorem eq_of_reports {d : Client} {r o : Outcome}
    (h : d.resultOf (Session.toResponse (reply r)) = .ok o) : o = r := by
  have hstatus : ¬((if r.isSuccessful then 200 else 500 : Nat) == 401) = true := by
    cases r.isSuccessful <;> decide
  unfold reply Session.toResponse Client.resultOf at h
  dsimp only at h
  rw [if_neg hstatus] at h
  split at h
  · cases h
    rfl
  · cases h

variable {w w' : World σ}

theorem process_of_reports {c : ClientCall} {o : Outcome} (h : w.Follows c.talk w')
    (hr : c.Reports o) :
    ∃ reply, process w.endpoint c.call = (reply, w'.endpoint) ∧
      ∃ d : Client, d.resultOf (Session.toResponse reply) = .ok o := by
  obtain ⟨reply, hends, d, hd⟩ := hr
  exact ⟨reply, process_of_conversation h.endpoint c.attempts hends (not_refused_of_reports hd),
    d, hd⟩

/-- An operation that has an outcome was performed. -/
theorem execute_performs {client : Nat} {op : Operation} {o : Outcome}
    (h : Client.execute client (.obj op) w = (.ok o, w')) :
    perform w.endpoint op = (o, w'.endpoint) ∧ ∃ talk, w.Follows talk w' := by
  obtain ⟨calls, hf, hcalls⟩ := (Client.execute_calls client (.obj op)).of_eq h
  obtain ⟨c, o', rfl, hcall, hr, rfl⟩ := hcalls.ok
  rw [talkOf_singleton, exchanges_call] at hf
  obtain ⟨reply', hp, d, hd⟩ := process_of_reports hf hr
  rw [hcall] at hp
  obtain ⟨rfl, hs⟩ := Prod.mk.inj hp
  rw [eq_of_reports hd, ← hs]
  exact ⟨rfl, _, hf⟩

theorem executeRequired_performs {client : Nat} {op : Operation} {o : Outcome}
    (h : Client.executeRequired client (.obj op) w = (.ok o, w')) :
    perform w.endpoint op = (o, w'.endpoint) ∧ o.isSuccessful = true ∧
      ∃ talk, w.Follows talk w' := by
  unfold Client.executeRequired at h
  obtain ⟨o', w₁, hexecute, hrequire⟩ := Run.ok_of_bind h
  obtain ⟨hr, rfl⟩ := Run.ok_of_ofExcept hrequire
  obtain ⟨rfl, hs⟩ := Client.eq_of_require hr
  obtain ⟨hp, hf⟩ := execute_performs hexecute
  exact ⟨hp, hs, hf⟩

theorem upload_receives {client : Nat} {path : Path} {hash : Json}
    (h : Client.upload client path w = (.ok hash, w')) :
    ∃ content o, (Run.readContent path w).1 = .ok content ∧
      receive w.endpoint path.name content = (o, w'.endpoint) ∧
      Client.contentHash o = .ok hash ∧ ∃ talk, w.Follows talk w' := by
  obtain ⟨content, c, o, hcontent, hf, hcall, hr, -, hhash⟩ := Client.upload_ok h
  obtain ⟨reply', hp, d, hd⟩ := process_of_reports hf hr
  rw [hcall] at hp
  obtain ⟨rfl, hs⟩ := Prod.mk.inj hp
  rw [eq_of_reports hd] at hhash
  exact ⟨content, _, hcontent, Prod.ext rfl hs, hhash, _, hf⟩

end ManagementServer

end ServerDeploy
