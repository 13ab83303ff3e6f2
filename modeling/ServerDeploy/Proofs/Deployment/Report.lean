import Mathlib.Data.List.Forall2
import ServerDeploy.Proofs.Deployment.PlanOperation
import ServerDeploy.Proofs.Json.Members

/-! What a response to a composite reports on each of its steps, and what a deployment makes of it: one
action for every step, in order, with the fate that the report gives it. -/

namespace ServerDeploy

namespace Outcome

open ActionResult

variable (r : Outcome) (i : Nat)

def report? : Option Json := (stepResults r).get? (stepKey i)

def Failed : Prop := ∃ e : Members, r.report? i = some (.obj e) ∧ e.get? outcomeKey = some (.str "failed")

def Cancelled : Prop :=
  ∃ e : Members, r.report? i = some (.obj e) ∧ e.get? outcomeKey = some (.str "cancelled")

def Missing : Prop := r.report? i = none ∨ r.report? i = some .null

/-- The step was reported on, neither as failed nor as cancelled. -/
def Fine : Prop :=
  ∃ e : Members, r.report? i = some (.obj e) ∧ e.get? outcomeKey ≠ some (.str "failed") ∧
    e.get? outcomeKey ≠ some (.str "cancelled")

def HeadersFit (m : Members) : Prop :=
  ∀ v, m.get? headersKey = some v → v = .null ∨ ∃ headers, v = .obj headers

/-- A response as the server sends it. Only the shape of its parts is asked for, no part itself. -/
structure WellFormed : Prop where
  headers : HeadersFit r
  entries : ∀ i v, r.report? i = some v → v = .null ∨ ∃ e : Members, v = .obj e ∧ HeadersFit e

/-- The headers of a response or of one of its entries ask for a reload or a restart. -/
def RestartFlagged (m : Members) : Prop :=
  ∃ headers : Members, m.get? headersKey = some (.obj headers) ∧
    ((∃ v, headers.get? "operation-requires-reload" = some v ∧ v.isSomething = true) ∨
      (∃ v, headers.get? "operation-requires-restart" = some v ∧ v.isSomething = true) ∨
      headers.get? "process-state" = some (.str "reload-required") ∨
      headers.get? "process-state" = some (.str "restart-required"))

def StepFlagged : Prop := ∃ e : Members, r.report? i = some (.obj e) ∧ RestartFlagged e

variable {r i}

theorem HeadersFit.of_none {m : Members} (h : m.get? headersKey = none) : HeadersFit m := by
  intro v hv
  rw [h] at hv
  cases hv

theorem Failed.not_fine (h : r.Failed i) : ¬r.Fine i := by
  rintro ⟨e, he, hfailed, -⟩
  obtain ⟨e', he', hfailed'⟩ := h
  rw [he] at he'
  cases he'
  exact hfailed hfailed'

theorem Fine.not_lost (h : r.Fine i) : ¬(r.Missing i ∨ r.Cancelled i) := by
  obtain ⟨e, he, -, hcancelled⟩ := h
  rintro ((hnone | hnull) | ⟨e', he', hcancelled'⟩)
  · rw [he] at hnone
    cases hnone
  · rw [he] at hnull
    cases hnull
  · rw [he] at he'
    cases he'
    exact hcancelled hcancelled'

theorem Failed.not_lost (h : r.Failed i) : ¬(r.Missing i ∨ r.Cancelled i) := by
  obtain ⟨e, he, hfailed⟩ := h
  rintro ((hnone | hnull) | ⟨e', he', hcancelled⟩)
  · rw [he] at hnone
    cases hnone
  · rw [he] at hnull
    cases hnull
  · rw [he] at he'
    cases he'
    rw [hfailed] at hcancelled
    simp at hcancelled

/-- The fate of a step by what the response reports on it. -/
inductive Fated (r : Outcome) (i : Nat) : ActionOutcome → Prop
  | failed (h : r.Failed i) : Fated r i .failed
  | lost (h : r.Missing i ∨ r.Cancelled i) : Fated r i .notExecuted
  | rolledBack (h : r.Fine i) (hr : (!r.isSuccessful && isRolledBack r) = true) :
      Fated r i .rolledBack
  | restart (h : r.Fine i) (hr : (!r.isSuccessful && isRolledBack r) = false)
      (hflagged : r.StepFlagged i ∨ RestartFlagged r) : Fated r i .requiresRestart
  | executed (h : r.Fine i) (hr : (!r.isSuccessful && isRolledBack r) = false)
      (hflagged : ¬(r.StepFlagged i ∨ RestartFlagged r)) : Fated r i .executed

end Outcome

namespace Json

theorem isSomething_member {member : Option Json} :
    (member.getD .null).isSomething = true ↔ ∃ v, member = some v ∧ v.isSomething = true := by
  cases member with
  | none => simp [isSomething]
  | some v => simp

end Json

namespace ActionResult

open Outcome

theorem headersRequireRestart_fit {m : Members} (h : HeadersFit m) :
    ∃ b, headersRequireRestart ((m.get? headersKey).getD .null) = .ok b ∧
      (b = true ↔ RestartFlagged m) := by
  cases hget : m.get? headersKey with
  | none => exact ⟨false, rfl, by simp [RestartFlagged, hget]⟩
  | some v =>
    rcases h v hget with rfl | ⟨headers, rfl⟩
    · exact ⟨false, rfl, by simp [RestartFlagged, hget]⟩
    · cases headers with
      | nil => exact ⟨false, rfl, by simp [RestartFlagged, hget, Members.get?]⟩
      | cons first headers =>
        refine ⟨_, rfl, ?_⟩
        simp only [isRestartState, Bool.or_eq_true, Json.isText_member, Json.isSomething_member]
        simp [RestartFlagged, hget, or_assoc]

/-- Whatever a well-formed response reports on a step is understood. -/
theorem fate_fated {r : Outcome} (hr : r.WellFormed) (i : Nat) :
    ∃ outcome failure, fate r ((r.report? i).getD .null) = .ok (outcome, failure) ∧
      r.Fated i outcome := by
  cases hentry : r.report? i with
  | none => exact ⟨_, _, rfl, .lost (.inl (.inl hentry))⟩
  | some v =>
    rcases hr.entries i v hentry with rfl | ⟨e, rfl, he⟩
    · exact ⟨_, _, rfl, .lost (.inl (.inr hentry))⟩
    · have hfate : fate r ((some (Json.obj e)).getD .null) = reportedFate r (.obj e) := rfl
      rw [hfate]
      unfold reportedFate
      have hmember : memberOf outcomeKey (.obj e) = .ok ((e.get? outcomeKey).getD .null) := rfl
      simp only [hmember, bind, Except.bind]
      by_cases hfailed : e.get? outcomeKey = some (.str "failed")
      · rw [if_pos (Json.isText_member.2 hfailed)]
        exact ⟨_, _, rfl, .failed ⟨e, hentry, hfailed⟩⟩
      rw [if_neg (mt Json.isText_member.1 hfailed)]
      by_cases hcancelled : e.get? outcomeKey = some (.str "cancelled")
      · rw [if_pos (Json.isText_member.2 hcancelled)]
        exact ⟨_, _, rfl, .lost (.inr ⟨e, hentry, hcancelled⟩)⟩
      rw [if_neg (mt Json.isText_member.1 hcancelled)]
      have hfine : r.Fine i := ⟨e, hentry, hfailed, hcancelled⟩
      cases hrolled : (!r.isSuccessful && isRolledBack r) with
      | true => exact ⟨_, _, rfl, .rolledBack hfine hrolled⟩
      | false =>
        have hheaders : memberOf headersKey (.obj e) = .ok ((e.get? headersKey).getD .null) := rfl
        have hown : r.StepFlagged i ↔ RestartFlagged e := by simp [StepFlagged, hentry]
        obtain ⟨own, hownRead, hownFlag⟩ := headersRequireRestart_fit he
        obtain ⟨top, htopRead, htopFlag⟩ := headersRequireRestart_fit hr.headers
        rw [if_neg (by simp), hheaders]
        simp only [hownRead]
        cases own with
        | true => exact ⟨_, _, rfl, .restart hfine hrolled (.inl (hown.2 (hownFlag.1 rfl)))⟩
        | false =>
          simp only [htopRead, Bool.false_eq_true, if_false]
          cases top with
          | true => exact ⟨_, _, rfl, .restart hfine hrolled (.inr (htopFlag.1 rfl))⟩
          | false =>
            refine ⟨_, _, rfl, .executed hfine hrolled ?_⟩
            rintro (hflagged | hflagged)
            · exact Bool.false_ne_true (hownFlag.2 (hown.1 hflagged))
            · exact Bool.false_ne_true (htopFlag.2 hflagged)

end ActionResult

namespace DeploymentPlan

/-- An operation is about the deployment that its name parameter gives, else the one at its address. -/
def IsAbout (op : Operation) (name : String) : Prop :=
  op.get? "name" = some (.str name) ∨
    op.get? "name" = none ∧ op.get? Operation.addressKey = some (addressOf name).model

/-- An operation as plans are made of. -/
structure IsStep (op : Operation) : Prop where
  named : ∃ kind : Json, op.get? Operation.nameKey = some kind ∧ kind.isSomething = true
  about : ∃ name, IsAbout op name ∧ ActionResult.stepDeployment op = .ok (.str name)

theorem isStep_fullReplace (name : String) (hash : Json) :
    IsStep (Operation.make "full-replace-deployment" .empty
      [("name", .str name), ("content", contentOf hash)]) := by
  refine ⟨⟨_, rfl, rfl⟩, name, .inl rfl, ?_⟩
  change (if (!name.isEmpty) = true then .ok (.str name)
    else ActionResult.addressDeployment (.arr [])) = _
  split
  · rfl
  · next hempty =>
    have hname : name = "" := String.isEmpty_iff.1 (by simpa using hempty)
    rw [hname]
    rfl

theorem PlanOperation.isStep {hash : Json} {op : Operation} (h : PlanOperation hash op) :
    IsStep op := by
  cases h with
  | fullReplace name => exact isStep_fullReplace name hash
  | add name | deploy name | redeploy name | undeploy name | remove name =>
    exact ⟨⟨_, rfl, rfl⟩, name, .inr ⟨rfl, rfl⟩, rfl⟩

end DeploymentPlan

namespace ActionResult

open DeploymentPlan

/-- An action that stands for an operation. -/
structure Tells (a : ActionResult) (op : Operation) : Prop where
  operation : op.get? Operation.nameKey = some a.operation
  deployment : ∃ name, IsAbout op name ∧ a.deployment = .str name

/-- The actions for operations whose steps are counted from a number on. -/
structure Describes (r : Outcome) (number : Nat) (ops : List Operation)
    (actions : List ActionResult) : Prop where
  tells : List.Forall₂ Tells actions ops
  fated : ∀ k a, actions[k]? = some a → r.Fated (number + k) a.outcome

theorem ofStep_tells {r : Outcome} (hr : r.WellFormed) {op : Operation} (hop : IsStep op) (number : Nat) :
    ∃ a, ofStep r number (.obj op) = .ok a ∧ a.Tells op ∧ r.Fated number a.outcome := by
  obtain ⟨kind, hkind, -⟩ := hop.named
  obtain ⟨name, habout, hdeployment⟩ := hop.about
  obtain ⟨outcome, failure, hfate, hfated⟩ := fate_fated hr number
  refine ⟨⟨kind, .str name, outcome, failure⟩, ?_, ⟨hkind, name, habout, rfl⟩, hfated⟩
  have hreported : fate r (((stepResults r).get? (stepKey number)).getD .null) =
      .ok (outcome, failure) := hfate
  unfold ofStep
  simp only [hdeployment, hreported, hkind, bind, Except.bind]
  rfl

theorem ofSteps_describes {r : Outcome} (hr : r.WellFormed) {ops : List Operation}
    (hops : ∀ op ∈ ops, IsStep op) (number : Nat) :
    ∃ actions, ofSteps r number (ops.map .obj) = .ok actions ∧ Describes r number ops actions := by
  induction ops generalizing number with
  | nil => exact ⟨[], rfl, .nil, by simp⟩
  | cons op ops ih =>
    obtain ⟨a, ha, htells, hfated⟩ := ofStep_tells hr (hops op (by simp)) number
    obtain ⟨actions, hactions, hdescribes⟩ := ih (fun op hop => hops op (by simp [hop])) (number + 1)
    refine ⟨a :: actions, ?_, .cons htells hdescribes.tells, fun k b hb => ?_⟩
    · rw [List.map_cons, ofSteps, ha, hactions]
      rfl
    · cases k with
      | zero =>
        obtain rfl : a = b := by simpa using hb
        exact hfated
      | succ k =>
        have hrest := hdescribes.fated k b (by simpa using hb)
        rwa [Nat.add_right_comm] at hrest

end ActionResult

end ServerDeploy
