import ServerDeploy.Proofs.Deployment.Submission
import ServerDeploy.Proofs.Session.Plan

/-! The order in which a deployment calls the server: it looks for the deployment, reads whether that
is enabled, uploads content and submits a composite. It makes each call at most once, and a call only
when those before it have succeeded, so that nothing is submitted after a failure. -/

namespace ServerDeploy

open Run

variable {σ : Type} [Endpoint σ]

namespace Client

/-- One of the calls has stored content under the hash. -/
def Stores (hash : Json) (calls : List ClientCall) : Prop :=
  ∃ c ∈ calls, ∃ o, c.Reports o ∧ o.isSuccessful = true ∧ contentHash o = .ok hash

theorem upload_performs (client : Nat) (path : Path) (w : World σ) : ∃ calls content,
    w.Follows (talkOf calls) (upload client path w).2 ∧
      Performs [.upload path.name content] (upload client path w).1 calls ∧
      (calls ≠ [] → (readContent path w).1 = .ok content) ∧
      ∀ hash, (upload client path w).1 = .ok hash → Client.Stores hash calls := by
  cases hcontent : (readContent path w).1 with
  | error e =>
    rw [upload_unreadable client hcontent]
    exact ⟨[], default, .refl w, .nothing_of_error _ e, nofun, nofun⟩
  | ok content =>
    obtain ⟨calls, hfollows, hcalls⟩ := upload_calls client hcontent
    refine ⟨calls, content, hfollows, ?_, fun _ => rfl, fun hash hhash => ?_⟩
    · rcases hcalls with ⟨rfl, hnone⟩ | ⟨c, rfl, hcall, hreported⟩
      · exact ⟨List.nil_prefix, nofun, fun v hv => absurd hv (hnone v)⟩
      · refine .single hcall fun v hv => ?_
        obtain ⟨o, ho, hs, -⟩ := hreported v hv
        exact ⟨o, ho, hs⟩
    · rw [hhash] at hcalls
      obtain ⟨c, o, rfl, -, hreports, hsuccess, hstored⟩ := hcalls.ok
      exact ⟨c, List.mem_cons_self, o, hreports, hsuccess, hstored⟩

end Client

namespace Deployments

/-- The deployment that meets the criterion among those that a listing reports. -/
def matched (name pattern : Option String) (listed : Outcome) : Option String :=
  match criterion name pattern, Client.namesOf listed.result with
  | .ok c, .ok found => (found.map Json.text).find? c.holds
  | _, _ => none

def listingCall : Call := .operation (.obj Operation.listDeployments)

/-- A listing is made, and what is found is what it reports. -/
def Finds (name pattern : Option String) (r : Except Fault (Option String))
    (calls : List ClientCall) : Prop :=
  Performs [listingCall] r calls ∧ ∀ existing, r = .ok existing →
    ∃ c ∈ calls, ∃ o, c.Reports o ∧ o.isSuccessful = true ∧ matched name pattern o = existing

theorem find_speaks (client : Nat) (name pattern : Option String) :
    Speaks (find client name pattern : Run σ (Option String)) (Finds name pattern) := by
  unfold find
  refine speaks_of_value (fun e => ⟨.nothing_of_error _ e, nofun⟩) fun c hc => ?_
  unfold names
  rw [bind_assoc]
  refine (Client.executeRequired_calls client _).bind (fun o calls h => ?_) fun e calls h => ?_
  · obtain ⟨l, _, rfl, hcall, hreports, rfl, hsuccess⟩ := h.ok
    have hsucceeded : l.Succeeded := ⟨o, hreports, hsuccess⟩
    rw [bind_assoc]
    refine speaks_of_value (fun e => ⟨.single hcall nofun, nofun⟩) fun found hfound => ?_
    refine speaks_pure ⟨.single hcall fun _ _ => hsucceeded, ?_⟩
    rintro _ ⟨⟩
    refine ⟨l, by simp, o, hreports, hsuccess, ?_⟩
    unfold matched
    rw [hc, hfound]
  · rcases h with ⟨rfl, -⟩ | ⟨l, rfl, hcall, -⟩
    · exact ⟨.nothing_of_error _ e, nofun⟩
    · exact ⟨.single hcall nofun, nofun⟩

end Deployments

/-- What only adds content does not look for a deployment. -/
def DeploymentType.looks : DeploymentType → Bool
  | .add | .deploy => false
  | .forceAdd | .forceDeploy | .redeploy | .undeploy | .undeployIgnoreMissing => true

namespace DeploymentPlan

open Deployments

def listings (type : DeploymentType) : List Call := if type.looks then [listingCall] else []

def enabledReads (type : DeploymentType) (existing : Option String) : List Call :=
  match type, existing with
  | .forceAdd, some name => [.operation (.obj (Operation.readAttribute "enabled" (addressOf name)))]
  | _, _ => []

/-- Whether a plan adds content or replaces it. -/
def bringsContent : DeploymentPlan → Bool
  | .add .. | .replace .. => true
  | .remove _ | .nothing _ => false

def uploads (archive : Archive) (content : Content) (plan : DeploymentPlan) : List Call :=
  if plan.bringsContent then [.upload archive.path.name content] else []

/-- The operations of a plan whose content was stored under a hash. -/
def operationsOf (hash : Json) : DeploymentPlan → List Operation
  | .add archive enabled => addSteps archive.deploymentName hash enabled
  | .replace archive existing enabled => replaceSteps archive.deploymentName existing hash enabled
  | .remove existing => removeSteps existing
  | .nothing _ => []

def composites (ops : List Operation) : List Call :=
  if ops.isEmpty then [] else [.operation (.obj (Composite.build ⟨true, ops.map .obj⟩))]

/-- The plan is about the archive, if it brings any content. -/
def IsFor (archive : Archive) : DeploymentPlan → Prop
  | .add a _ | .replace a _ _ => a = archive
  | .remove _ | .nothing _ => True

/-- How the plan is looked for: by a listing, and by a read of the deployment that it names. -/
def Looks (type : DeploymentType) (archive : Archive) (pattern : Option String)
    (r : Except Fault DeploymentPlan) (calls : List ClientCall) : Prop :=
  ∃ listing enabled existing, calls = listing ++ enabled ∧
    Performs (listings type ++ enabledReads type existing) r calls ∧
    listing.map (·.call) <+: listings type ∧ enabled.map (·.call) <+: enabledReads type existing ∧
    (∀ name, existing = some name → ∃ c ∈ listing, ∃ o, c.Reports o ∧ o.isSuccessful = true ∧
      matched (some archive.deploymentName) pattern o = some name) ∧
    ∀ plan, r = .ok plan → plan.IsFor archive

variable {client : Nat} {type : DeploymentType} {archive : Archive} {pattern : Option String}

theorem looks_nothing {type : DeploymentType} (hlooks : type.looks = false) {plan : DeploymentPlan}
    (h : plan.IsFor archive) : Looks type archive pattern (.ok plan) [] := by
  have hlistings : listings type = [] := by simp [listings, hlooks]
  have hreads : enabledReads type none = [] := by cases type <;> rfl
  refine ⟨[], [], none, rfl, ?_, List.nil_prefix, List.nil_prefix, nofun, ?_⟩
  · rw [hlistings, hreads]
    exact .nothing _
  · rintro _ ⟨⟩
    exact h

theorem looks_of_find (hlooks : type.looks = true) {next : Option String → Run σ DeploymentPlan}
    (hnext : ∀ existing, Speaks (next existing) fun r calls =>
      Performs (enabledReads type existing) r calls ∧ ∀ plan, r = .ok plan → plan.IsFor archive) :
    Speaks (find client (some archive.deploymentName) pattern >>= next)
      (Looks type archive pattern) := by
  have hlistings : listings type = [listingCall] := if_pos hlooks
  refine (find_speaks client _ _).bind (fun existing calls h => ?_) fun e calls h => ?_
  · refine (hnext existing).weaken fun r more hmore => ?_
    refine ⟨calls, more, existing, rfl, ?_, ?_, hmore.1.begun, fun name hname => ?_, hmore.2⟩
    · rw [hlistings]
      exact h.1.append hmore.1
    · rw [hlistings]
      exact h.1.begun
    · obtain ⟨c, hc, o, hreports, hsuccess, hmatched⟩ := h.2 existing rfl
      exact ⟨c, hc, o, hreports, hsuccess, hmatched.trans hname⟩
  · refine ⟨calls, [], none, by simp, ?_, ?_, List.nil_prefix, nofun, nofun⟩
    · rw [hlistings]
      exact h.1.error_append _
    · rw [hlistings]
      exact h.1.begun

theorem isEnabled_performs (client : Nat) (name : String) :
    Speaks (isEnabled client name : Run σ Bool) (Performs (enabledReads .forceAdd (some name))) :=
  performs_then (performs_executeRequired client _) fun _ => performs_pure _

omit [Endpoint σ] in
theorem requireStandalone_apply (client : Nat) (w : World σ) : requireStandalone client w =
    (if (w.clientAt client).isDomain then .error (.deploy .domainUnsupported) else .ok (), w) := by
  unfold requireStandalone
  rw [bind_of_ok (Client.client_apply client w)]
  split <;> rfl

omit [Endpoint σ] in
theorem requireStandalone_standalone {w : World σ} (hw : (w.clientAt client).isDomain = false) :
    requireStandalone client w = (.ok (), w) := by
  rw [requireStandalone_apply, hw]
  rfl

theorem choose_looks (type : DeploymentType) (archive : Archive) (pattern : Option String)
    {w : World σ} (hw : (w.clientAt client).isDomain = false) :
    ∃ calls, w.Follows (talkOf calls) (choose client type archive pattern w).2 ∧
      Looks type archive pattern (choose client type archive pattern w).1 calls := by
  unfold choose
  rw [bind_of_ok (requireStandalone_standalone hw)]
  -- a plan at once, or a fault
  have known {type : DeploymentType} {existing : Option String}
      (hreads : enabledReads type existing = []) {plan : DeploymentPlan} (h : plan.IsFor archive) :
      Speaks (pure plan : Run σ DeploymentPlan) fun r calls =>
        Performs (enabledReads type existing) r calls ∧
          ∀ plan, r = .ok plan → plan.IsFor archive := by
    refine speaks_pure ⟨?_, by rintro _ ⟨⟩; exact h⟩
    rw [hreads]
    exact .nothing _
  have missing {type : DeploymentType} (e : DeployError) :
      Speaks (fail e : Run σ DeploymentPlan) fun r calls =>
        Performs (enabledReads type none) r calls ∧ ∀ plan, r = .ok plan → plan.IsFor archive :=
    speaks_throw ⟨.nothing_of_error _ _, nofun⟩
  cases type with
  | add => exact ⟨[], .refl w, looks_nothing rfl rfl⟩
  | deploy => exact ⟨[], .refl w, looks_nothing rfl rfl⟩
  | forceAdd =>
    refine looks_of_find rfl (fun existing => ?_) w
    cases existing with
    | none => exact known rfl rfl
    | some existing =>
      refine (isEnabled_performs client existing).bind (fun enabled calls h => ?_) fun e calls h => ?_
      · exact speaks_pure ⟨by simpa using h.append (.nothing _), by rintro _ ⟨⟩; rfl⟩
      · exact ⟨by simpa using h.error_append [], nofun⟩
  | forceDeploy =>
    refine looks_of_find rfl (fun existing => ?_) w
    cases existing with
    | none => exact known rfl rfl
    | some existing => exact known rfl rfl
  | redeploy =>
    refine looks_of_find rfl (fun existing => ?_) w
    cases existing with
    | none => exact missing _
    | some existing => exact known rfl rfl
  | undeploy =>
    refine looks_of_find rfl (fun existing => ?_) w
    cases existing with
    | none => exact missing _
    | some existing => exact known rfl trivial
  | undeployIgnoreMissing =>
    refine looks_of_find rfl (fun existing => ?_) w
    cases existing with
    | none => exact known rfl trivial
    | some existing => exact known rfl trivial

/-- An upload is made where the plan brings content, and the operations refer to what was stored. -/
theorem steps_uploads (client : Nat) {plan : DeploymentPlan} (hplan : plan.IsFor archive)
    (w : World σ) : ∃ calls content, w.Follows (talkOf calls) (steps client plan w).2 ∧
      Performs (uploads archive content plan) (steps client plan w).1 calls ∧
      (calls ≠ [] → (readContent archive.path w).1 = .ok content) ∧
      ∀ ops, (steps client plan w).1 = .ok ops →
        ∃ hash, ops = plan.operationsOf hash ∧ (plan.bringsContent = true → Client.Stores hash calls) := by
  obtain ⟨calls, content, hfollows, hperforms, hcontent, hstores⟩ :=
    Client.upload_performs client archive.path w
  have uploaded (f : Json → List Operation) :
      let body : Run σ (List Operation) := Client.upload client archive.path >>= fun hash => pure (f hash)
      w.Follows (talkOf calls) (body w).2 ∧
        Performs [.upload archive.path.name content] (body w).1 calls ∧
        ∀ ops, (body w).1 = .ok ops → ∃ hash, ops = f hash ∧ Client.Stores hash calls := by
    dsimp only
    rw [bind_apply]
    rcases hu : Client.upload client archive.path w with ⟨e | hash, w'⟩
    · rw [hu] at hfollows hperforms
      exact ⟨hfollows, by simpa using hperforms.error_append [], nofun⟩
    · rw [hu] at hfollows hperforms hstores
      refine ⟨hfollows, by simpa using hperforms.append (.nothing _), ?_⟩
      rintro _ ⟨⟩
      exact ⟨hash, rfl, hstores hash rfl⟩
  cases plan with
  | add a enabled =>
    obtain rfl : a = archive := hplan
    obtain ⟨hf, hp, hops⟩ := uploaded fun hash => addSteps a.deploymentName hash enabled
    refine ⟨calls, content, hf, hp, hcontent, fun ops h => ?_⟩
    obtain ⟨hash, rfl, hstored⟩ := hops ops h
    exact ⟨hash, rfl, fun _ => hstored⟩
  | replace a existing enabled =>
    obtain rfl : a = archive := hplan
    obtain ⟨hf, hp, hops⟩ := uploaded fun hash => replaceSteps a.deploymentName existing hash enabled
    refine ⟨calls, content, hf, hp, hcontent, fun ops h => ?_⟩
    obtain ⟨hash, rfl, hstored⟩ := hops ops h
    exact ⟨hash, rfl, fun _ => hstored⟩
  | remove existing =>
    refine ⟨[], default, .refl w, .nothing _, nofun, ?_⟩
    rintro _ ⟨⟩
    exact ⟨.null, rfl, nofun⟩
  | nothing reason =>
    refine ⟨[], default, .refl w, .nothing _, nofun, ?_⟩
    rintro _ ⟨⟩
    exact ⟨.null, rfl, nofun⟩

/-- A composite that was submitted has succeeded where its plan ends well. -/
theorem submit_performs (client : Nat) (plan : DeploymentPlan) (ops : List Operation) :
    Speaks (if ops.isEmpty then pure ⟨plan, []⟩
      else do
        let c ← Run.ofExcept (Composite.empty.addSteps (ops.map .obj))
        let r ← Client.execute client (.obj c.build)
        let actions ← Run.ofExcept (ActionResult.ofResponse c.steps r)
        match ActionResult.rootFailure? actions with
        | some a => Run.fail a.toError
        | none => pure ⟨plan, actions⟩ : Run σ DeploymentResult) (Performs (composites ops)) := by
  unfold composites
  split
  · exact performs_pure _
  next hne =>
  refine performs_of_value fun composite hc => ?_
  obtain rfl := Composite.eq_of_addSteps hc
  have hsteps : ops.map Json.obj ≠ [] := by simpa using hne
  refine (Client.execute_calls client _).bind (fun r calls hcalls => ?_) fun e calls hcalls => ?_
  · obtain ⟨c, _, rfl, hcall, hr, rfl⟩ := hcalls.ok
    refine speaks_of_value (fun _ => .single hcall nofun) fun actions hresponse => ?_
    -- the composite has steps, so it has failed exactly if one of them is to blame
    cases hroot : ActionResult.rootFailure? actions with
    | some a => exact speaks_throw (.single hcall nofun)
    | none =>
      have hs := ActionResult.isSuccessful_of_ofResponse hresponse hsteps hroot
      exact speaks_pure (.single hcall fun _ _ => ⟨r, hr, hs⟩)
  · rcases hcalls with ⟨rfl, -⟩ | ⟨c, rfl, hcall, -⟩
    · exact .nothing_of_error _ e
    · exact .single hcall nofun

/-- What a plan is executed by: an upload of its content, and the composite that refers to it. -/
theorem execute_in_order (client : Nat) {plan : DeploymentPlan} (hplan : plan.IsFor archive)
    (w : World σ) : ∃ uploading submitting content hash,
      w.Follows (talkOf (uploading ++ submitting)) (execute client plan w).2 ∧
      Performs (uploads archive content plan ++ composites (plan.operationsOf hash))
        (execute client plan w).1 (uploading ++ submitting) ∧
      uploading.map (·.call) <+: uploads archive content plan ∧
      submitting.map (·.call) <+: composites (plan.operationsOf hash) ∧
      (uploading ≠ [] → (readContent archive.path w).1 = .ok content) ∧
      (submitting ≠ [] → plan.bringsContent = true → Client.Stores hash uploading) := by
  unfold execute
  cases hdomain : (w.clientAt client).isDomain with
  | true =>
    rw [bind_apply, requireStandalone_apply, if_pos hdomain]
    exact ⟨[], [], default, .null, .refl w, .nothing_of_error _ _, List.nil_prefix, List.nil_prefix,
      nofun, nofun⟩
  | false =>
    obtain ⟨uploading, content, hfollows, hperforms, hcontent, hops⟩ := steps_uploads client hplan w
    rw [bind_of_ok (requireStandalone_standalone hdomain), bind_apply]
    rcases hs : steps client plan w with ⟨e | ops, w₁⟩
    · rw [hs] at hfollows hperforms
      exact ⟨uploading, [], content, .null, by simpa using hfollows,
        by simpa using hperforms.error_append _, hperforms.begun, List.nil_prefix, hcontent, nofun⟩
    · rw [hs] at hfollows hperforms hops
      obtain ⟨hash, rfl, hstored⟩ := hops ops rfl
      obtain ⟨submitting, hf, hp⟩ := submit_performs client plan (plan.operationsOf hash) w₁
      refine ⟨uploading, submitting, content, hash, ?_, hperforms.append hp, hperforms.begun,
        hp.begun, hcontent, fun _ => hstored⟩
      rw [talkOf_append]
      exact hfollows.trans hf

/-- The calls of a deployment by what they are made for, with what came up on the way: the deployment
that was found, the content of the archive and the hash that it was stored under. -/
structure Sequence where
  listing : List ClientCall
  enabled : List ClientCall
  uploading : List ClientCall
  submitting : List ClientCall
  existing : Option String
  content : Content
  hash : Json

namespace Sequence

def calls (s : Sequence) : List ClientCall := s.listing ++ s.enabled ++ (s.uploading ++ s.submitting)

/-- What there is to upload for a plan, if there is one. -/
def uploads (s : Sequence) (archive : Archive) (plan : Option DeploymentPlan) : List Call :=
  plan.elim [] (DeploymentPlan.uploads archive s.content)

def composites (s : Sequence) (plan : Option DeploymentPlan) : List Call :=
  plan.elim [] fun plan => DeploymentPlan.composites (plan.operationsOf s.hash)

/-- The calls are made in order, each after the success of those before it, and each is what is asked
for and what the calls before it have found. -/
structure Orderly (s : Sequence) (type : DeploymentType) (archive : Archive)
    (pattern : Option String) (plan : Option DeploymentPlan) (content : Except Fault Content)
    (r : Except Fault DeploymentResult) : Prop where
  performs : Performs (listings type ++ enabledReads type s.existing ++
    (s.uploads archive plan ++ s.composites plan)) r s.calls
  listing : s.listing.map (·.call) <+: listings type
  enabled : s.enabled.map (·.call) <+: enabledReads type s.existing
  uploading : s.uploading.map (·.call) <+: s.uploads archive plan
  submitting : s.submitting.map (·.call) <+: s.composites plan
  found : ∀ name, s.existing = some name → ∃ c ∈ s.listing, ∃ o, c.Reports o ∧
    o.isSuccessful = true ∧ matched (some archive.deploymentName) pattern o = some name
  content : s.uploading ≠ [] → content = .ok s.content
  stored : s.submitting ≠ [] → ∀ p ∈ plan, p.bringsContent = true → Client.Stores s.hash s.uploading
  guarded : s.submitting ≠ [] → ∀ c ∈ s.listing ++ s.enabled ++ s.uploading, c.Succeeded

theorem succeeded_before {s : Sequence} {plan : List Call} {r : Except Fault DeploymentResult}
    (h : Performs plan r s.calls) (hs : s.submitting ≠ []) :
    ∀ c ∈ s.listing ++ s.enabled ++ s.uploading, c.Succeeded := by
  intro c hc
  refine h.successes c ?_
  rw [calls, ← List.append_assoc, List.dropLast_append_of_ne_nil hs]
  exact List.mem_append_left _ hc

end Sequence

end DeploymentPlan

end ServerDeploy
