import ServerDeploy.Proofs.Session.Call
import ServerDeploy.Proofs.Session.Steps

/-! Clients that are closed. Closing a client ends its session, which no use of any client opens again.
Operations ask the client first whether it is closed; uploads do not, and are only stopped by the session. -/

namespace ServerDeploy

variable {σ : Type}

namespace World

/-- The client that was made as `c` and the session it was given, closed or not. -/
structure Tracks (w : World σ) (client : Nat) (c : Client) (closed : Prop) : Prop where
  made : client < w.clients.length
  same : ∃ isClosed, w.clientAt client = { c with isClosed := isClosed }
  isClosed : (w.clientAt client).isClosed = true ↔ closed
  isShut : closed → (w.sessionAt c.session).isOpen = false

theorem Tracks.of_keeps {w w' : World σ} {client : Nat} {c : Client} {closed : Prop}
    (h : w.Tracks client c closed) (hk : w.Keeps w') : w'.Tracks client c closed := by
  have hclient := clientAt_of_clients hk.clients client
  refine ⟨hk.clients ▸ h.made, hclient ▸ h.same, hclient ▸ h.isClosed, fun hclosed => ?_⟩
  rw [hk.isOpen_eq]
  exact h.isShut hclosed

theorem Tracks.session {w : World σ} {client : Nat} {c : Client} {closed : Prop}
    (h : w.Tracks client c closed) : (w.clientAt client).session = c.session := by
  obtain ⟨isClosed, hsame⟩ := h.same
  rw [hsame]

theorem Tracks.endpoint {w : World σ} {client : Nat} {c : Client} {closed : Prop}
    (h : w.Tracks client c closed) : (w.clientAt client).endpoint = c.endpoint := by
  obtain ⟨isClosed, hsame⟩ := h.same
  rw [hsame]
  rfl

/-- The world with a client and its session closed. -/
def closing (w : World σ) (client : Nat) : World σ :=
  { w.withSession (w.clientAt client).session
      { w.sessionAt (w.clientAt client).session with isOpen := false } with
    clients := w.clients.set client { w.clientAt client with isClosed := true } }

theorem isOpen_closing {w : World σ} {client session : Nat} (h : (w.sessionAt session).isOpen = false) :
    ((w.closing client).sessionAt session).isOpen = false := by
  rcases sessionAt_withSession_cases w (w.clientAt client).session
    { w.sessionAt (w.clientAt client).session with isOpen := false } session with hkept | ⟨-, hset⟩
  · exact (congrArg Session.isOpen hkept).trans h
  · exact congrArg Session.isOpen hset

theorem isOpen_closing_self (w : World σ) (client : Nat) :
    ((w.closing client).sessionAt (w.clientAt client).session).isOpen = false := by
  by_cases hopen : (w.sessionAt (w.clientAt client).session).isOpen = true
  · exact congrArg Session.isOpen (sessionAt_withSession hopen _)
  · exact isOpen_closing (Bool.eq_false_iff.2 hopen)

theorem clientAt_closing_self {w : World σ} {client : Nat} (hmade : client < w.clients.length) :
    (w.closing client).clientAt client = { w.clientAt client with isClosed := true } := by
  unfold clientAt closing
  dsimp only
  rw [List.getElem?_set_self hmade]
  rfl

theorem clientAt_closing_ne {w : World σ} {client other : Nat} (h : other ≠ client) :
    (w.closing other).clientAt client = w.clientAt client := by
  unfold clientAt closing
  dsimp only
  rw [List.getElem?_set_ne h]

end World

theorem Run.closeClient_open {w : World σ} {client : Nat} (h : (w.clientAt client).isClosed = false) :
    Run.closeClient client w = (.ok (), w.closing client) := by
  unfold Run.closeClient
  rw [Run.bind_of_ok (Client.client_apply client w), if_pos (by simp [h])]
  rfl

theorem Run.closeClient_closed {w : World σ} {client : Nat} (h : (w.clientAt client).isClosed = true) :
    Run.closeClient client w = (.ok (), w) := by
  unfold Run.closeClient
  rw [Run.bind_of_ok (Client.client_apply client w), if_neg (by simp [h])]
  rfl

theorem World.Tracks.close {w : World σ} {client : Nat} {c : Client} {closed : Prop}
    (h : w.Tracks client c closed) (other : Nat) :
    (Run.closeClient other w).2.Tracks client c (closed ∨ other = client) := by
  by_cases hclosed : (w.clientAt other).isClosed = true
  · rw [Run.closeClient_closed hclosed]
    have hafter : closed ∨ other = client ↔ closed :=
      or_iff_left_of_imp fun heq => h.isClosed.1 (heq ▸ hclosed)
    rwa [hafter]
  rw [Run.closeClient_open (Bool.eq_false_iff.2 hclosed)]
  have hmade : client < (w.closing other).clients.length := by simpa [closing] using h.made
  by_cases heq : other = client
  · subst heq
    obtain ⟨isClosed, hsame⟩ := h.same
    have hself := clientAt_closing_self h.made
    refine ⟨hmade, ⟨true, ?_⟩, ?_, fun _ => ?_⟩
    · rw [hself, hsame]
    · simp [hself]
    · rw [← h.session]
      exact w.isOpen_closing_self other
  · have hkept := clientAt_closing_ne (w := w) heq
    simp only [heq, or_false]
    exact ⟨hmade, hkept ▸ h.same, hkept ▸ h.isClosed, fun h' => isOpen_closing (h.isShut h')⟩

variable [Endpoint σ]

namespace Client

inductive Use where
  | execute (op : Json)
  | upload (path : Path)
  | close

/-- The world after a client was used, whether or not that ended in a fault. -/
def Use.effect (client : Nat) (w : World σ) : Use → World σ
  | .execute op => (Client.execute client op w).2
  | .upload path => (Client.upload client path w).2
  | .close => (Run.closeClient client w).2

/-- The world after some clients were used, one use after the other. -/
def after (w : World σ) (uses : List (Nat × Use)) : World σ :=
  uses.foldl (fun w use => use.2.effect use.1 w) w

theorem effect_tracks {w : World σ} {client : Nat} {c : Client} {closed : Prop}
    (h : w.Tracks client c closed) (use : Nat × Use) :
    (use.2.effect use.1 w).Tracks client c (closed ∨ use = (client, .close)) := by
  obtain ⟨other, use⟩ := use
  cases use with
  | execute op =>
    have hkeeps := Session.keeps_of_steps (execute_steps other op w)
    simpa [Use.effect] using h.of_keeps hkeeps
  | upload path =>
    have hkeeps := Session.keeps_of_steps (upload_steps other path w)
    simpa [Use.effect] using h.of_keeps hkeeps
  | close => simpa [Use.effect] using h.close other

theorem after_tracks {w : World σ} {client : Nat} {c : Client} {closed : Prop}
    (h : w.Tracks client c closed) (uses : List (Nat × Use)) :
    (after w uses).Tracks client c (closed ∨ (client, .close) ∈ uses) := by
  induction uses generalizing w closed with
  | nil => simpa [after] using h
  | cons use uses ih =>
    have hrest := ih (effect_tracks h use)
    rwa [or_assoc, eq_comm (a := use), ← List.mem_cons] at hrest

theorem execute_shut {w : World σ} {client : Nat} (hclosed : (w.clientAt client).isClosed = true)
    (op : Json) : execute client op w =
      (.error (.deploy (.connection (.closed (w.clientAt client).endpoint))), w) := by
  unfold execute
  rw [Run.bind_of_ok (client_apply client w), if_pos hclosed]
  rfl

/-- No question whether the client is closed comes before the file is read and the session is used. -/
theorem upload_shut {w : World σ} {client : Nat}
    (hshut : (w.sessionAt (w.clientAt client).session).isOpen = false) (path : Path) :
    upload client path w =
      (.error (match (Run.readContent path w).1 with
        | .ok _ => .closedSession
        | .error e => e), w) := by
  cases hread : (Run.readContent path w).1 with
  | error e => exact upload_unreadable client hread
  | ok content =>
    have hcontent : Run.readContent path w = (.ok content, w) :=
      Prod.ext hread (Run.still_readContent path w)
    have hsend (url : String) (call : Call) :
        Session.send (w.clientAt client).session url call w = (.error .closedSession, w) := by
      unfold Session.send
      rw [Run.bind_of_ok (Session.session_apply _ w), if_pos (by simp [hshut])]
      rfl
    unfold upload
    rw [Run.bind_of_ok (client_apply client w), Run.bind_of_ok hcontent, Run.bind_apply,
      Run.tryCatch_apply, hsend]
    rfl

/-- A client is closed exactly by its own close, whatever was done with it and with others before and
after. From then on nothing that is done with it changes anything: an operation is refused as one of a
closed client, and closing it again has no effect. An upload fails too, but for another reason. It reads
its file, and only the session stops it, with a fault that is none of a connection. -/
theorem closed_after {w : World σ} {client : Nat} (hmade : client < w.clients.length)
    (hlive : (w.clientAt client).isClosed = false) (uses : List (Nat × Use)) :
    (((after w uses).clientAt client).isClosed = true ↔ (client, .close) ∈ uses) ∧
    ((client, .close) ∈ uses →
      (∀ op, execute client op (after w uses) =
        (.error (.deploy (.connection (.closed (w.clientAt client).endpoint))), after w uses)) ∧
      (∀ path, upload client path (after w uses) =
        (.error (match (Run.readContent path (after w uses)).1 with
          | .ok _ => .closedSession
          | .error e => e), after w uses)) ∧
      Run.closeClient client (after w uses) = (.ok (), after w uses) ∧
      ∀ later : List Use, after (after w uses) (later.map (client, ·)) = after w uses) := by
  have htracks : w.Tracks client (w.clientAt client) False :=
    ⟨hmade, ⟨false, by rw [← hlive]⟩, by simp [hlive], False.elim⟩
  have h := after_tracks htracks uses
  rw [false_or] at h
  refine ⟨h.isClosed, fun hmem => ?_⟩
  have hclosed := h.isClosed.2 hmem
  have hshut := h.isShut hmem
  rw [← h.session] at hshut
  have hexecute (op : Json) := execute_shut hclosed op
  have hupload := upload_shut hshut
  have hclose := Run.closeClient_closed hclosed
  refine ⟨fun op => h.endpoint ▸ hexecute op, hupload, hclose, fun later => ?_⟩
  induction later with
  | nil => rfl
  | cons use later ih =>
    have hkept : use.effect client (after w uses) = after w uses := by
      cases use with
      | execute op => exact congrArg Prod.snd (hexecute op)
      | upload path => exact congrArg Prod.snd (hupload path)
      | close => exact congrArg Prod.snd hclose
    rw [List.map_cons, after, List.foldl_cons]
    dsimp only
    rw [hkept]
    exact ih

/-- A file that is there is to be uploaded after the client was closed: the session is what stops it. -/
theorem closed_after_upload :
    (Client.upload 0 (.ofText "app.war") (after ((Run.newClient "localhost" 9990 "http" .nowhere
      { World.quiet ([] : Script) (.ofText "/work") (.ofText "/home") with
        files := ⟨[(["work"], .directory), (["work", "app.war"], .file (.text "content"))]⟩ }).2)
        [(0, .execute (.obj [])), (0, .close)])).1 = .error .closedSession :=
  congrArg Prod.fst (((closed_after (by decide) rfl [(0, .execute (.obj [])), (0, .close)]).2
    (by simp)).2.1 (.ofText "app.war"))

end Client

end ServerDeploy
