import Mathlib.Data.List.Forall2
import ServerDeploy.Proofs.Resource.Requests
import ServerDeploy.Proofs.Session.Lapsing

/-! What a hook carries to the server. Nothing is sent before all commands can be read. Their operations
then go out in order, one by one or as the steps of one composite, and the first that fails is the
last that is sent. A hook ends well exactly when all that was sent has succeeded and nothing was kept
back because it holds a number that cannot be sent. -/

namespace ServerDeploy

open Run

variable {σ : Type} [Endpoint σ] {α β : Type}

namespace Operation

def request (op : Operation) : Call := .operation (.obj op)

/-- JSON text can carry all its values. -/
def Sendable (op : Operation) : Prop := (Json.obj op).hasNonFinite = false

/-- The operation has a name that is not empty. -/
def IsNamed (op : Operation) : Prop :=
  ∃ kind : Json, op.get? nameKey = some kind ∧ kind.isSomething = true

end Operation

open Operation

namespace Hook

/-- How operations go out one after the other, each after the success of the one before. -/
inductive Carries : List Operation → Except Fault α → List ClientCall → Prop where
  | done (v : α) : Carries [] (.ok v) []
  | succeeds {op : Operation} {plan : List Operation} {r : Except Fault α} {c : ClientCall}
      {calls : List ClientCall} (hop : op.Sendable) (hcall : c.call = op.request) (hc : c.Succeeded)
      (hrest : Carries plan r calls) : Carries (op :: plan) r (c :: calls)
  | fails {op : Operation} {plan : List Operation} {e : Fault} {c : ClientCall} (hop : op.Sendable)
      (hcall : c.call = op.request) (hc : ¬c.Succeeded) : Carries (op :: plan) (.error e) [c]
  | keepsBack {op : Operation} {plan : List Operation} (hop : ¬op.Sendable) :
      Carries (op :: plan) (.error (.value "Out of range float values are not JSON compliant")) []

namespace Carries

variable {plan : List Operation} {r : Except Fault α} {calls : List ClientCall}

theorem map (h : Carries plan r calls) (f : α → β) : Carries plan (f <$> r) calls := by
  induction h with
  | done v => exact .done (f v)
  | succeeds hop hcall hc _ ih => exact .succeeds hop hcall hc ih
  | fails hop hcall hc => exact .fails hop hcall hc
  | keepsBack hop => exact .keepsBack hop

theorem performs (h : Carries plan r calls) : Performs (plan.map request) r calls := by
  induction h with
  | done v => exact .nothing _
  | @succeeds op plan r c calls _ hcall hc _ ih =>
    exact Performs.append (p := [op.request]) (v := c) (.single hcall fun _ _ => hc) ih
  | @fails op plan e c _ hcall _ =>
    exact Performs.error_append (p := [op.request]) (α := α) (.single hcall nofun) _
  | keepsBack => exact .nothing_of_error _ _

theorem ok_iff (h : Carries plan r calls) :
    (∃ v, r = .ok v) ↔ (∀ c ∈ calls, c.Succeeded) ∧ ∀ op ∈ plan, op.Sendable := by
  induction h with
  | done v => simp
  | succeeds hop hcall hc _ ih => simp [ih, hc, hop]
  | fails hop hcall hc => simp [hc]
  | keepsBack hop => simp [hop]

/-- Nothing that can be sent is left out but after a failure. -/
theorem stops (h : Carries plan r calls) (hplan : ∀ op ∈ plan, op.Sendable) :
    calls.map (·.call) = plan.map request ∨ ∃ c ∈ calls.getLast?, ¬c.Succeeded := by
  induction h with
  | done v => exact .inl rfl
  | @succeeds op plan r c calls _ hcall hc _ ih =>
    rcases ih fun op hop => hplan op (List.mem_cons_of_mem _ hop) with hall | ⟨last, hlast, hfailed⟩
    · exact .inl (by rw [List.map_cons, List.map_cons, hcall, hall])
    · refine .inr ⟨last, ?_, hfailed⟩
      rw [List.getLast?_cons, Option.mem_def.1 hlast]
      rfl
  | @fails op plan e c _ _ hc => exact .inr ⟨c, rfl, hc⟩
  | keepsBack hop => exact absurd (hplan _ List.mem_cons_self) hop

end Carries

variable {client : Nat} {w : World σ}

theorem executeRequired_keepsBack {op : Operation} (hw : w.Reaches client) (h : ¬op.Sendable) :
    Client.executeRequired client (.obj op) w =
      (.error (.value "Out of range float values are not JSON compliant"), w) := by
  rw [Client.executeRequired_apply, Client.execute_nonFinite hw (by simpa [Sendable] using h)]
  rfl

theorem reaches_of_executeRequired {op : Operation} {o : Outcome} {w' : World σ}
    (h : Client.executeRequired client (.obj op) w = (.ok o, w')) : w'.Reaches client := by
  unfold Client.executeRequired at h
  obtain ⟨o', w₁, hexecute, h⟩ := ok_of_bind h
  obtain ⟨-, rfl⟩ := ok_of_ofExcept h
  exact Client.reaches_of_execute hexecute

theorem executeEach_carries (ops : List Operation) : ∀ w : World σ, w.Reaches client →
    ∃ calls, w.Follows (talkOf calls) (executeEach client ops w).2 ∧
      Carries ops (executeEach client ops w).1 calls := by
  induction ops with
  | nil => exact fun w _ => ⟨[], .refl w, .done ()⟩
  | cons op ops ih =>
    intro w hw
    unfold executeEach
    rw [bind_apply]
    by_cases hop : op.Sendable
    · obtain ⟨c, hcall, hfollows, hsucceeded⟩ := Client.executeRequired_reaches hw hop
      rcases hr : Client.executeRequired client (.obj op) w with ⟨e | o, w₁⟩
      · rw [hr] at hfollows hsucceeded
        have hc : ¬c.Succeeded := fun hc => nomatch hsucceeded.2 hc
        exact ⟨[c], by simpa using hfollows, .fails hop hcall hc⟩
      · rw [hr] at hfollows hsucceeded
        obtain ⟨calls, hrest, hcarries⟩ := ih w₁ (reaches_of_executeRequired hr)
        refine ⟨c :: calls, ?_, .succeeds hop hcall (hsucceeded.1 ⟨o, rfl⟩) hcarries⟩
        exact hfollows.trans hrest
    · rw [executeRequired_keepsBack hw hop]
      exact ⟨[], .refl w, .keepsBack hop⟩

omit [Endpoint σ] in
theorem eq_of_map_ok {r : Except Fault α} {n m : β} (h : (fun _ => n) <$> r = .ok m) : m = n := by
  cases r with
  | error e => cases h
  | ok v => exact (Except.ok.inj h).symm

/-- What goes out for the operations of the commands. -/
def submissions (batch : Bool) (ops : List Operation) : List Operation :=
  if batch then [Composite.build ⟨true, ops.map .obj⟩] else ops

theorem executeBatch_named {ops : List Operation} (h : ∀ op ∈ ops, op.IsNamed) (w : World σ) :
    executeBatch client ops w = executeEach client (submissions true ops) w := by
  unfold executeBatch submissions
  rw [Composite.addSteps_of_named h]
  rfl

theorem sendable_submissions {batch : Bool} {ops : List Operation} :
    (∀ op ∈ submissions batch ops, op.Sendable) ↔ ∀ op ∈ ops, op.Sendable := by
  cases batch with
  | false => rfl
  | true =>
    have hany : Json.hasNonFinite.nonFiniteItem (ops.map .obj) = false ↔
        ∀ op ∈ ops, op.Sendable := by
      induction ops with
      | nil => simp [Json.hasNonFinite.nonFiniteItem]
      | cons op ops ih => simp [Json.hasNonFinite.nonFiniteItem, Sendable, ih]
    simpa [submissions, Sendable, Composite.hasNonFinite_build] using hany

/-- The operations that a call carries: the steps of the composite, or just the one. -/
def carried (batch : Bool) : Call → List Json
  | .operation (.obj op) =>
    if batch then
      match Members.get? "steps" op with
      | some (.arr steps) => steps
      | _ => []
    else [.obj op]
  | .operation _ | .upload .. => []

theorem flatMap_carried (batch : Bool) (ops : List Operation) :
    ((submissions batch ops).map request).flatMap (carried batch) = ops.map .obj := by
  cases batch with
  | false =>
    induction ops with
    | nil => rfl
    | cons op ops ih => exact congrArg (_ :: ·) ih
  | true => exact List.append_nil _

/-- The commands are read as these operations. -/
def Reads (commands : List String) (ops : List Operation) : Prop :=
  List.Forall₂ (fun command op => Command.read command = .ok op) commands ops

theorem operations_of_reads {commands : List String} {ops : List Operation}
    (h : Reads commands ops) : operations commands = .ok ops := by
  induction h with
  | nil => rfl
  | cons hread _ ih =>
    unfold operations
    rw [hread, ih]
    rfl

theorem operations_of_unreadable {commands : List String} {command : String} {e : Fault}
    (hmem : command ∈ commands) (h : Command.read command = .error e) :
    ∃ e', operations commands = .error e' := by
  induction commands with
  | nil => cases hmem
  | cons first rest ih =>
    unfold operations
    rcases List.mem_cons.1 hmem with rfl | hmem
    · rw [h]
      exact ⟨e, rfl⟩
    · obtain ⟨e', he'⟩ := ih hmem
      cases Command.read first with
      | error e => exact ⟨e, rfl⟩
      | ok op =>
        rw [he']
        exact ⟨e', rfl⟩

theorem run_unreadable {h : Hook} {command : String} {e : Fault} (hmem : command ∈ h.commands)
    (hread : Command.read command = .error e) (w : World σ) :
    ∃ e', run client (some h) w = (.error e', w) := by
  obtain ⟨e', he'⟩ := operations_of_unreadable hmem hread
  unfold run
  dsimp only
  rw [if_neg (by simpa using List.ne_nil_of_mem hmem), he']
  exact ⟨e', rfl⟩

theorem run_eq {h : Hook} {ops : List Operation} (hcommands : h.commands ≠ [])
    (hreads : Reads h.commands ops) (hnamed : h.batch = true → ∀ op ∈ ops, op.IsNamed)
    (w : World σ) :
    run client (some h) w =
      ((fun _ => ops.length) <$> (executeEach client (submissions h.batch ops) w).1,
        (executeEach client (submissions h.batch ops) w).2) := by
  unfold run
  dsimp only
  have counted (body : Run σ Unit) : (body >>= fun _ => (pure ops.length : Run σ Nat)) w =
      ((fun _ => ops.length) <$> (body w).1, (body w).2) := by
    rw [bind_apply]
    rcases body w with ⟨e | v, w'⟩ <;> rfl
  rw [if_neg (by simpa using hcommands), operations_of_reads hreads]
  cases hbatch : h.batch with
  | false => exact counted _
  | true =>
    rw [← executeBatch_named (hnamed hbatch)]
    exact counted _

/-- A hook with commands, run by a client that reaches the server: if a command cannot be read nothing
is sent. Otherwise the operations go out in order up to the first that fails, or all as the steps of
one composite, and the hook gives the number of commands exactly when all that was sent has succeeded
and all can be sent. Both ways carry the same operations. -/
theorem run_carries {h : Hook} (hcommands : h.commands ≠ []) (hw : w.Reaches client) :
    (∀ command ∈ h.commands, ∀ e, Command.read command = .error e →
      ∃ e', run client (some h) w = (.error e', w)) ∧
    ∀ ops, Reads h.commands ops → (h.batch = true → ∀ op ∈ ops, op.IsNamed) → ∃ calls,
      w.Follows (talkOf calls) (run client (some h) w).2 ∧
      Carries (submissions h.batch ops) (run client (some h) w).1 calls ∧
      Performs ((submissions h.batch ops).map request) (run client (some h) w).1 calls ∧
      ((∀ op ∈ ops, op.Sendable) →
        calls.map (·.call) = (submissions h.batch ops).map request ∨
          ∃ c ∈ calls.getLast?, ¬c.Succeeded) ∧
      ((run client (some h) w).1 = .ok h.commands.length ↔
        (∀ c ∈ calls, c.Succeeded) ∧ ∀ op ∈ ops, op.Sendable) ∧
      ∀ n, (run client (some h) w).1 = .ok n →
        n = h.commands.length ∧
          (calls.map (·.call)).flatMap (carried h.batch) = ops.map .obj := by
  refine ⟨fun command hmem e hread => run_unreadable hmem hread w, fun ops hreads hnamed => ?_⟩
  have hlength : h.commands.length = ops.length := hreads.length_eq
  obtain ⟨calls, hfollows, hcarries⟩ :=
    executeEach_carries (submissions h.batch ops) w hw
  rw [run_eq hcommands hreads hnamed]
  have hrun := hcarries.map fun _ => ops.length
  refine ⟨calls, hfollows, hrun, hrun.performs,
    fun hops => hrun.stops (sendable_submissions.2 hops), ?_, fun n hn => ?_⟩
  · rw [← sendable_submissions, ← hrun.ok_iff, hlength]
    refine ⟨fun h => ⟨_, h⟩, fun ⟨n, hn⟩ => ?_⟩
    rw [hn, eq_of_map_ok hn]
  · obtain ⟨hall, -⟩ := hrun.performs.done n hn
    rw [hall, flatMap_carried]
    exact ⟨(eq_of_map_ok hn).trans hlength.symm, rfl⟩

/-- One command in a batch, with a number that is too large for a finite one. -/
def oversized : Hook :=
  ⟨["/subsystem=logging/logger=a:write-attribute(name=ratio,value=1e999)"], true⟩

def willing : World Script :=
  World.ready [.answer 200 (.json (.obj [("outcome", .str "success")]))]

/-- The command can be read, but no composite goes out. -/
theorem run_carries_oversized :
    (run 0 (some oversized) willing).1 =
        .error (.value "Out of range float values are not JSON compliant") ∧
      (run 0 (some oversized) willing).2.requests = [] := by
  obtain ⟨op, hread, hnamed, hop⟩ : ∃ op, (oversized.commands.map Command.read) = [.ok op] ∧
      (op.get? nameKey).any Json.isSomething = true ∧ (Json.obj op).hasNonFinite = true := by
    refine ⟨_, rfl, ?_, ?_⟩ <;> decide +kernel
  have hreads : Reads oversized.commands [op] := .cons (List.cons.inj hread).1 .nil
  have hkept : ¬(Composite.build ⟨true, [.obj op]⟩ : Operation).Sendable := by
    simp [Sendable, Composite.hasNonFinite_build, Json.hasNonFinite.nonFiniteItem, hop]
  have hreaches : willing.Reaches 0 := (World.ready_fresh _).reaches
  obtain ⟨calls, hfollows, hcarries, -⟩ :=
    (run_carries (by decide) hreaches).2 [op] hreads fun _ other hother => by
      obtain rfl := List.mem_singleton.1 hother
      exact (Option.any_eq_true _ _).1 hnamed
  generalize hresult : (run 0 (some oversized) willing).1 = r at hcarries
  cases hcarries with
  | succeeds hsent => exact absurd hsent hkept
  | fails hsent => exact absurd hsent hkept
  | keepsBack => exact ⟨rfl, hfollows.requests⟩

end Hook

end ServerDeploy
