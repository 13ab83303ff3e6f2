import ServerDeploy.Proofs.Deployment.Acceptance
import ServerDeploy.Proofs.Session.Connected

/-! Deployments that get through. A connected client learns what it asks for and uploads what it can
read, and the composite of its plan is answered, with a result or with the failure of a step. -/

namespace ServerDeploy

open ManagementServer

/-- What the endpoint was asked for last. -/
def World.lastCall? {σ : Type} (w : World σ) : Option Call := w.requests.getLast?.map (·.call)

theorem Client.lastCall_of_execute {σ : Type} [Endpoint σ] {client : Nat} {op : Json} {o : Outcome}
    {w w' : World σ} (h : execute client op w = (.ok o, w')) :
    w'.lastCall? = some (.operation op) := by
  obtain ⟨calls, hf, hcalls⟩ := (execute_calls client op).of_eq h
  obtain ⟨c, o', rfl, hcall, -, -⟩ := hcalls.ok
  rw [talkOf_singleton, exchanges_call] at hf
  obtain ⟨before, x, htalk⟩ : ∃ before x, c.talk = before ++ [x] :=
    ⟨_, _, (List.dropLast_append_getLast c.sent).symm⟩
  have hx := c.attempts.same x (by simp [htalk])
  unfold World.lastCall?
  rw [hf.requests, htalk]
  simp [hx, hcall]

variable {client : Nat} {w w₁ : World DeploymentServer}

namespace Deployments

theorem names_connected (hw : w.Connected client) :
    ∃ w', names client w = (.ok w.endpoint.deployments.names, w') ∧ w'.Connected client := by
  have hperform : perform w.endpoint Operation.listDeployments =
      (succeeded (.arr (w.endpoint.deployments.names.map .str)), w.endpoint) := rfl
  have hsuccess : (perform w.endpoint Operation.listDeployments).1.isSuccessful = true := rfl
  obtain ⟨w', hexecute, hw'⟩ := Client.executeRequired_connected hw rfl hsuccess rfl
  rw [hperform] at hexecute
  refine ⟨w', ?_, hw'⟩
  unfold names
  rw [Run.bind_of_ok hexecute, Run.bind_apply, Run.ofExcept_apply, namesOf_listed]
  dsimp only
  rw [Run.pure_apply, texts_names]

theorem find_connected (name : String) {pattern : Option String} (hw : w.Connected client)
    (hpattern : ∀ p, pattern = some p → ∃ q, Pattern.parse p = .ok q) :
    ∃ w', find client (some name) pattern w =
        (.ok (w.endpoint.deployments.present name pattern), w') ∧ w'.Connected client := by
  obtain ⟨c, hc⟩ : ∃ c, criterion (some name) pattern = .ok c := by
    cases pattern with
    | none => exact ⟨_, rfl⟩
    | some p =>
      obtain ⟨q, hq⟩ := hpattern p rfl
      exact ⟨.matching q, by simp only [criterion, hq]⟩
  obtain ⟨w', hnames, hw'⟩ := names_connected hw
  have hfind : find client (some name) pattern w =
      (.ok (w.endpoint.deployments.names.find? c.holds), w') := by
    unfold find
    rw [hc, Run.bind_of_ok (Run.ofExcept_apply _ _), Run.bind_of_ok hnames, Run.pure_apply]
  obtain ⟨hfound, -⟩ := find_ok hfind
  rw [hfound] at hfind
  exact ⟨w', hfind, hw'⟩

end Deployments

namespace DeploymentPlan

open DeploymentServer ActionResult

theorem isEnabled_connected {name : String} {d : Deployed} (hw : w.Connected client)
    (hd : w.endpoint.deployments.get? name = some d) :
    ∃ w', isEnabled client name w = (.ok d.enabled, w') ∧ w'.Connected client := by
  have hperform : perform w.endpoint (Operation.readAttribute "enabled" (addressOf name)) =
      (succeeded (.bool d.enabled), w.endpoint) := by
    rw [perform_readEnabled, hd]
    rfl
  have hsuccess : (perform w.endpoint
      (Operation.readAttribute "enabled" (addressOf name))).1.isSuccessful = true := by
    rw [hperform]
    rfl
  obtain ⟨w', hexecute, hw'⟩ :=
    Client.executeRequired_connected hw rfl hsuccess (by rw [hperform])
  rw [hperform] at hexecute
  refine ⟨w', ?_, hw'⟩
  unfold isEnabled
  rw [Run.bind_of_ok hexecute, Run.pure_apply]
  cases d.enabled <;> rfl

theorem requireStandalone_connected (hw : w.Connected client) :
    requireStandalone client w = (.ok (), w) := by
  unfold requireStandalone
  rw [Run.bind_of_ok (Client.client_apply client w), if_neg (by simp [hw.isDomain]), Run.pure_apply]

theorem upload_gives_digest {path : Path} {content : Content} (hw : w.Connected client)
    (hcontent : (Run.readContent path w).1 = .ok content) :
    ∃ w', Client.upload client path w =
        (.ok (.str (w.endpoint.digest path.name content)), w') ∧
      w'.Connected client ∧ w'.endpoint = w.endpoint := by
  have hhash : Client.contentHash (receive w.endpoint path.name content).1 =
      .ok (.str (w.endpoint.digest path.name content)) := rfl
  obtain ⟨w', hupload, hw'⟩ := Client.upload_connected hw hcontent rfl hhash rfl
  exact ⟨w', hupload, hw', (upload_ok hupload).2⟩

theorem PlanOperation.hasNonFinite {digest : String} {op : Operation}
    (h : PlanOperation (.str digest) op) : (Json.obj op).hasNonFinite = false := by
  cases h with
  | add | fullReplace | deploy | redeploy | undeploy | remove => rfl

theorem composite_hasNonFinite {digest : String} {ops : List Operation}
    (hops : ∀ op ∈ ops, PlanOperation (.str digest) op) :
    (Json.obj (Composite.build ⟨true, ops.map .obj⟩)).hasNonFinite = false := by
  have hitems : Json.hasNonFinite.nonFiniteItem (ops.map .obj) = false := by
    induction ops with
    | nil => rfl
    | cons op ops ih =>
      rw [List.map_cons, Json.hasNonFinite.nonFiniteItem, (hops op (by simp)).hasNonFinite,
        ih fun op hop => hops op (by simp [hop])]
      rfl
  rw [Composite.hasNonFinite_build, hitems]

/-- Operations were submitted as one composite, which decides what comes of it all. -/
structure Submitted (s : DeploymentServer) (ops : List Operation) (r : Except Fault DeploymentResult)
    (w' : World DeploymentServer) : Prop where
  asked : w'.lastCall? = some (.operation (.obj (Composite.build ⟨true, ops.map .obj⟩)))
  accepted : (∃ s', Applied s ops s') →
    (∃ result, r = .ok result) ∧ Applied s ops w'.endpoint
  refused : (¬∃ s', Applied s ops s') →
    (∃ message a, r = .error (.deploy (.deploymentFailed message a))) ∧ w'.endpoint = s

theorem execute_submits {plan : DeploymentPlan} {digest : String} {ops : List Operation}
    (hclient : requireStandalone client w = (.ok (), w))
    (hsteps : steps client plan w = (.ok ops, w₁)) (hw₁ : w₁.Connected client)
    (hops : ∀ op ∈ ops, PlanOperation (.str digest) op) (hne : ops ≠ []) :
    ∃ r w', execute client plan w = (r, w') ∧ Submitted w₁.endpoint ops r w' := by
  have hperform := perform_composite w₁.endpoint ops
  have hfit := composite_outcome_isSome w₁.endpoint (ops.map .obj)
  have hshape : (composite w₁.endpoint (ops.map .obj)).1.WellFormed :=
    composite_wellFormed fun op hop => headersFit_stepOf (hops op hop).changes
  rw [← hperform] at hfit hshape
  obtain ⟨w', hexecute, -⟩ :=
    Client.execute_connected hw₁ (composite_hasNonFinite hops) hfit
  obtain ⟨fates, -, hdescribes, hend⟩ :=
    execute_of_response hclient hsteps hne hexecute hshape
  have hroot := hdescribes.rootFailure?_settle_eq_none hne
  obtain ⟨hcomposite, -⟩ := execute_performs hexecute
  have hasked := Client.lastCall_of_execute hexecute
  rw [hperform] at hroot hcomposite hend
  -- the composite succeeds just when it can be applied, and then no step is to blame
  cases hsuccess : (composite w₁.endpoint (ops.map .obj)).1.isSuccessful with
  | true =>
    rw [hroot.2 ⟨hsuccess, composite_fine hsuccess⟩] at hend
    have happlied := composite_isSuccessful_iff.1 hsuccess
    exact ⟨_, w', hend, hasked,
      fun _ => ⟨⟨_, rfl⟩, applied_of_composite hcomposite hsuccess⟩, fun h => absurd happlied h⟩
  | false =>
    have hrefused : ¬∃ s', Applied w₁.endpoint ops s' := by
      rw [← composite_isSuccessful_iff, hsuccess]
      exact Bool.false_ne_true
    cases hcause : rootFailure? (settle (composite w₁.endpoint (ops.map .obj)).1 fates) with
    | none =>
      obtain ⟨hs, -⟩ := hroot.1 hcause
      rw [hsuccess] at hs
      cases hs
    | some a =>
      rw [hcause] at hend
      have hkept : w'.endpoint = w₁.endpoint := by
        rw [← composite_refused hsuccess, hcomposite]
      exact ⟨_, w', hend, hasked, fun h => absurd h hrefused, fun _ => ⟨⟨_, _, rfl⟩, hkept⟩⟩

end DeploymentPlan

end ServerDeploy
