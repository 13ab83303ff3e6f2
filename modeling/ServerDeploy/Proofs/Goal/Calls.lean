import ServerDeploy.Goal.Basic
import ServerDeploy.Proofs.Artifact.Offline
import ServerDeploy.Proofs.Deployment.Sequence
import ServerDeploy.Proofs.Resource.Batches
import ServerDeploy.Proofs.Server.Looking
import ServerDeploy.Proofs.Session.Sparing

/-! The calls of a goal. Whatever a goal does, each of its calls is processed at most once, and what has
failed is not tried again but for looks at the server. -/

namespace ServerDeploy

open Run ClientCall

variable {σ : Type} [Endpoint σ]

namespace World

/-- One world comes out of another by a conversation, whatever else has changed. -/
structure Converses (w : World σ) (talk : List Exchange) (w' : World σ) : Prop where
  endpoint : Conversation w.endpoint talk w'.endpoint
  requests : w'.requests = w.requests ++ talk.map (·.request)

theorem Follows.converses {w w' : World σ} {talk : List Exchange} (h : w.Follows talk w') :
    w.Converses talk w' := ⟨h.endpoint, h.requests⟩

theorem Converses.trans {w w₁ w₂ : World σ} {xs ys : List Exchange} (h : w.Converses xs w₁)
    (h' : w₁.Converses ys w₂) : w.Converses (xs ++ ys) w₂ where
  endpoint := h.endpoint.append h'.endpoint
  requests := by rw [h'.requests, h.requests, List.map_append, List.append_assoc]

end World

namespace Run

variable {α β : Type} {Q R : List ClientCall → Prop}

/-- From every world the computation holds a conversation of calls of which `Q` is true. -/
def Sends (body : Run σ α) (Q : List ClientCall → Prop) : Prop :=
  ∀ w : World σ, ∃ calls : List ClientCall, w.Converses (talkOf calls) (body w).2 ∧ Q calls

theorem Speaks.sends {body : Run σ α} (h : Speaks body fun _ calls => Q calls) : Sends body Q := by
  intro w
  obtain ⟨calls, hf, hcalls⟩ := h w
  exact ⟨calls, hf.converses, hcalls⟩

theorem Offline.then_sends {body : Run σ α} {next : α → Run σ β} (h : Offline body) (hnone : Q [])
    (hnext : ∀ v, Sends (next v) Q) : Sends (body >>= next) Q := by
  intro w
  have hw : w.Converses [] (body w).2 := ⟨(h w).1 ▸ .nil _, by simp [(h w).2]⟩
  rw [bind_apply]
  rcases hb : body w with ⟨e | v, w₁⟩
  · rw [hb] at hw
    exact ⟨[], hw, hnone⟩
  · rw [hb] at hw
    obtain ⟨calls, hf, hcalls⟩ := hnext v w₁
    exact ⟨calls, by simpa using hw.trans hf, hcalls⟩

/-- What comes after a computation that leaves things clear may go its own way. -/
theorem sends_bind {body : Run σ α} {next : α → Run σ β} (h : Speaks body Clear)
    (hnext : ∀ v, Sends (next v) Unrepeated) : Sends (body >>= next) Unrepeated := by
  intro w
  obtain ⟨calls, hf, hcalls⟩ := h w
  rw [bind_apply]
  rcases hb : body w with ⟨e | v, w₁⟩
  · rw [hb] at hf hcalls
    exact ⟨calls, hf.converses, hcalls.unrepeated⟩
  · rw [hb] at hf hcalls
    obtain ⟨more, hf', hmore⟩ := hnext v w₁
    exact ⟨calls ++ more, by simpa using hf.converses.trans hf',
      .of_settled_append (hcalls.settled v rfl) hmore⟩

theorem Sends.andFinally {body : Run σ α} {after : Run σ Unit} (h : Sends body Q)
    (hafter : Silent after) : Sends (andFinally body after) Q := by
  intro w
  obtain ⟨calls, hf, hcalls⟩ := h w
  rw [andFinally_apply]
  exact ⟨calls, by simpa using hf.trans (hafter (body w).2).converses, hcalls⟩

end Run

theorem Client.upload_clear (client : Nat) (path : Path) :
    Speaks (Client.upload client path : Run σ Json) Clear := by
  intro w
  obtain ⟨calls, content, hf, hperforms, -⟩ := Client.upload_performs client path w
  exact ⟨calls, hf, .of_performs hperforms⟩

theorem Deployments.find_clear (client : Nat) (name pattern : Option String) :
    Speaks (Deployments.find client name pattern : Run σ (Option String)) Clear := by
  have names : Speaks (Deployments.names client : Run σ (List String)) Clear := by
    refine clear_bind (clear_of_performs (performs_executeRequired client _)) fun r => ?_
    exact clear_bind (silent_ofExcept _).clear fun found => (silent_pure _).clear
  exact clear_bind (silent_ofExcept _).clear fun c => clear_bind names fun found =>
    (silent_pure _).clear

namespace DeploymentPlan

theorem choose_clear (client : Nat) (type : DeploymentType) (archive : Archive)
    (pattern : Option String) :
    Speaks (choose client type archive pattern : Run σ DeploymentPlan) Clear := by
  refine clear_bind (still_requireStandalone client).silent.clear fun _ => ?_
  have found {next : Option String → Run σ DeploymentPlan} (hnext : ∀ v, Speaks (next v) Clear) :
      Speaks (Deployments.find client (some archive.deploymentName) pattern >>= next) Clear :=
    clear_bind (Deployments.find_clear client _ _) hnext
  cases type with
  | add => exact (silent_pure _).clear
  | deploy => exact (silent_pure _).clear
  | forceAdd =>
    refine found fun existing => ?_
    cases existing with
    | none => exact (silent_pure _).clear
    | some existing =>
      have read := clear_bind (clear_of_performs (performs_executeRequired client
        (.obj (Operation.readAttribute "enabled" (addressOf existing))))) fun r : Outcome =>
          (silent_pure (σ := σ) r.result.isSomething).clear
      exact clear_bind read fun _ => (silent_pure _).clear
  | forceDeploy =>
    refine found fun existing => ?_
    cases existing <;> exact (silent_pure _).clear
  | redeploy =>
    refine found fun existing => ?_
    cases existing
    · exact (silent_throw _).clear
    · exact (silent_pure _).clear
  | undeploy =>
    refine found fun existing => ?_
    cases existing
    · exact (silent_throw _).clear
    · exact (silent_pure _).clear
  | undeployIgnoreMissing =>
    refine found fun existing => ?_
    cases existing <;> exact (silent_pure _).clear

theorem steps_clear (client : Nat) (plan : DeploymentPlan) :
    Speaks (steps client plan : Run σ (List Operation)) Clear := by
  cases plan with
  | add archive enabled =>
    exact clear_bind (Client.upload_clear client _) fun _ => (silent_pure _).clear
  | replace archive existing enabled =>
    exact clear_bind (Client.upload_clear client _) fun _ => (silent_pure _).clear
  | remove existing => exact (silent_pure _).clear
  | nothing reason => exact (silent_pure _).clear

theorem execute_clear (client : Nat) (plan : DeploymentPlan) :
    Speaks (execute client plan : Run σ DeploymentResult) Clear := by
  refine clear_bind (still_requireStandalone client).silent.clear fun _ => ?_
  refine clear_bind (steps_clear client plan) fun ops => ?_
  exact clear_of_performs (submit_performs client plan ops)

theorem run_clear (client : Nat) (type : DeploymentType) (archive : Archive)
    (pattern : Option String) : Speaks (run client type archive pattern : Run σ DeploymentResult) Clear :=
  clear_bind (choose_clear client type archive pattern) fun plan => execute_clear client plan

end DeploymentPlan

namespace Task

theorem addAll_clear (client : Nat) (options : Resource.AddOptions) (profiles : List String)
    (resources : List Resource) :
    Speaks (addAll client options profiles resources : Run σ GoalResult) Clear := by
  intro w
  obtain ⟨bs, fault, w', hrun, h⟩ := Resource.addAll_recorded client options profiles resources w
  obtain ⟨listing, talks, hf, -, ⟨hsuccesses, hdone⟩, -⟩ := h.talk
  unfold addAll
  rw [Run.bind_of_ok hrun]
  dsimp only
  refine ⟨_, by cases fault <;> exact hf, .of_successes hsuccesses fun v hv => hdone ?_⟩
  cases fault with
  | none => rfl
  | some fault => cases hv

theorem deployAndBlock_clear (config : ServerConfig) (archive : Archive) (force : Bool) :
    Speaks (deployAndBlock config archive force : Run σ DeploymentResult) Clear := by
  have blocked (patience : Nat) : OnlyLooks (blockWhileRunning patience : Run σ Unit) := by
    induction patience with
    | zero => exact (silent_throw _).only
    | succ patience ih =>
      refine Server.isRunning_looks.bind fun running => ?_
      split
      · exact (silent_sleep _).only.bind fun _ => ih
      · exact (silent_pure _).only
  refine clear_bind (Server.waitForStart_clear _ _) fun _ => ?_
  refine clear_bind Connection.getClient_looks.clear fun client => ?_
  refine clear_bind (DeploymentPlan.run_clear client _ _ _) fun r => ?_
  have ended : Speaks (do
      blockWhileRunning (← get).terminal.patience
      pure r : Run σ DeploymentResult) Clear :=
    clear_bind silent_get.clear fun w => clear_bind (blocked _).clear fun _ => (silent_pure _).clear
  split
  · exact clear_bind (clear_of_performs (performs_executeRequired client _)) fun _ => ended
  · exact ended

omit [Endpoint σ] in
theorem still_requireArchive (archive : Archive) (shown : Path) :
    Still (requireArchive archive shown : Run σ Unit) := by
  refine (still_pathExists _).bind fun found => ?_
  split
  · exact still_throw _
  · exact still_pure _

/-- However a launched server is used, stopping it comes last. -/
theorem runServer_unrepeated (config : ServerConfig) (archive : Archive) (force : Bool) :
    Speaks (runServer config archive force : Run σ DeploymentResult) fun _ calls => Unrepeated calls := by
  have silent_absolute : Silent (absolute archive.path : Run σ Path) :=
    silent_get.bind fun _ => silent_pure _
  have nothing (e : Fault) : Unrepeated [] := unrepeated_of_settled (by simp)
  refine silent_absolute.then (fun shown => ?_) nothing
  refine (still_requireArchive archive shown).silent.then (fun _ => ?_) nothing
  refine config.still_validate.silent.then (fun _ => ?_) nothing
  refine (Server.silent_start config).then (fun _ => ?_) nothing
  exact Speaks.andFinally ((deployAndBlock_clear config archive force).weaken fun _ _ h => h.unrepeated)
    (Server.stop_closes _) fun _ _ h h' => h.append_closing h'

theorem execute_unrepeated (task : Task) : Sends (task.execute : Run σ GoalResult) Unrepeated := by
  have clear {α : Type} {body : Run σ α} (h : Speaks body Clear) : Sends body Unrepeated :=
    Speaks.sends (h.weaken fun _ _ h => h.unrepeated)
  have deployed {body : Run σ DeploymentResult} (h : Speaks body Clear) :
      Speaks (GoalResult.deployed <$> body) Clear := by
    rw [← bind_pure_comp]
    exact clear_bind h fun _ => (silent_pure _).clear
  have withClient {next : Nat → Run σ GoalResult} (hnext : ∀ id, Speaks (next id) Clear) :
      Speaks (Connection.getClient >>= next) Clear := clear_bind Connection.getClient_looks.clear hnext
  cases task with
  | addResources resources base profiles force dryRun =>
    exact clear (withClient fun client => addAll_clear client _ profiles resources)
  | executeCommands commands =>
    refine clear (withClient fun client => ?_)
    exact clear_bind (clear_of_performs (Hook.run_performs client _)) fun _ => (silent_pure _).clear
  | deploy archive force enabled pattern =>
    exact clear (clear_bind (still_requireArchive archive _).silent.clear fun _ =>
      withClient fun client => deployed (DeploymentPlan.run_clear client _ _ _))
  | deployArtifact coordinates file name repositories force pattern =>
    refine (repositories.offline_resolveArtifact coordinates file).then_sends
      (unrepeated_of_settled (by simp)) fun path => ?_
    exact clear (withClient fun client => deployed (DeploymentPlan.run_clear client _ _ _))
  | undeployArtifact coordinates file name pattern ignoreMissing =>
    refine clear (withClient fun client => clear_bind (silent_ofExcept _).clear fun archive => ?_)
    exact deployed (DeploymentPlan.run_clear client _ _ _)
  | start config =>
    have started : Speaks (startServer config : Run σ Unit) Clear :=
      clear_bind config.still_validate.silent.clear fun _ =>
        clear_bind (Server.silent_start config).clear fun _ => Server.waitForStart_clear _ _
    exact clear (clear_bind started fun _ => (silent_pure _).clear)
  | run config archive force =>
    have ran : Speaks (GoalResult.deployed <$> runServer config archive force : Run σ GoalResult)
        fun _ calls => Unrepeated calls := by
      rw [← bind_pure_comp]
      refine (runServer_unrepeated config archive force).bind (fun _ _ h => ?_) fun _ _ h => h
      exact speaks_pure (by simpa using h)
    exact Speaks.sends ran
  | shutdown reload reloadTimeout =>
    cases reload with
    | true =>
      refine clear (withClient fun client => ?_)
      exact clear_bind (Client.reload_clear client _ _) fun _ => (silent_pure _).clear
    | false =>
      have closing : OnlyMakes IsClosing (do
          let client ← Connection.getClient
          let r ← Client.shutdown client
          let _ ← Run.ofExcept r.require
          pure .finished : Run σ GoalResult) := by
        refine (Connection.getClient_looks.weaken fun _ => .inl).bind fun client => ?_
        refine ((Client.execute_only client _).weaken fun _ => .inr).bind fun r => ?_
        exact ((silent_ofExcept _).bind fun _ => silent_pure _).only
      exact Speaks.sends (Speaks.weaken closing fun _ _ h => unrepeated_of_closing h)

end Task

namespace Goal

theorem run_unrepeated (g : Goal) : Sends (g.run : Run σ GoalResult) Unrepeated := by
  have silent_connect : Silent (connect g.settings : Run σ Unit) := fun _ => .quiet rfl rfl rfl rfl
  refine sends_bind silent_connect.clear fun _ => ?_
  refine sends_bind Connection.silent_hostAddress.clear fun _ => ?_
  refine Sends.andFinally ?_ Connection.silent_close
  have wanted {wanted : Bool} : Sends (if wanted then g.task.execute else pure .skipped : Run σ GoalResult)
      Unrepeated := by
    split
    · exact g.task.execute_unrepeated
    · exact Speaks.sends (speaks_pure (unrepeated_of_settled (by simp)))
  split
  · exact sends_bind (Connection.checkPreconditions_clear _ _) fun _ => wanted
  · exact sends_bind (silent_pure _).clear fun _ => wanted

end Goal

/-- How a request is sent: three times at most, again after a refusal only, and not after the transport
has failed. -/
structure Session.Tried (call : Call) (talk : List Exchange) : Prop where
  same : ∀ x ∈ talk, x.request.call = call
  atMost : talk.length ≤ 3
  again : ∀ x ∈ talk.dropLast, isRefusal x.reply = true
  lost : ∀ before x after reason, talk = before ++ x :: after → x.reply = .lost reason → after = []

theorem ClientCall.tried (c : ClientCall) : Session.Tried c.call c.talk where
  same := c.attempts.same
  atMost := c.atMost
  again := c.attempts.again
  lost before x after reason htalk hx := by
    rcases after with _ | ⟨y, after⟩
    · rfl
    · have hrefused := c.attempts.again x (by simp [htalk, List.dropLast_append_of_ne_nil])
      rw [hx] at hrefused
      cases hrefused

/-- A request of a client goes out as often as it is turned down, up to three times. In the run of a
goal the server processes each of its calls at most once, and none is made again because it failed, except
for looks at the server. -/
theorem requests_unrepeated :
    (∀ (client : Nat) (op : Json) (w : World σ), ∃ talk,
      w.Follows talk (Client.execute client op w).2 ∧ Session.Tried (.operation op) talk) ∧
    (∀ (client : Nat) (path : Path) (w : World σ), ∃ talk content,
      w.Follows talk (Client.upload client path w).2 ∧ Session.Tried (.upload path.name content) talk) ∧
    ∀ (g : Goal) (w : World σ), ∃ calls : List ClientCall,
      w.Converses (talkOf calls) (g.run w).2 ∧ (∀ c ∈ calls, c.processings ≤ 1) ∧ Unrepeated calls := by
  have untried (call : Call) : Session.Tried call [] := ⟨by simp, by simp, by simp, by simp⟩
  have tried {α : Type} {call : Call} {reported : α → Outcome → Prop} {r : Except Fault α}
      {calls : List ClientCall} (h : Client.Calls call reported r calls) :
      Session.Tried call (talkOf calls) := by
    rcases h with ⟨rfl, -⟩ | ⟨c, rfl, rfl, -⟩
    · exact untried call
    · simpa using c.tried
  refine ⟨fun client op w => ?_, fun client path w => ?_, fun g w => ?_⟩
  · obtain ⟨calls, hf, hcalls⟩ := Client.execute_calls client op w
    exact ⟨talkOf calls, hf, tried hcalls⟩
  · cases hcontent : (readContent path w).1 with
    | error e =>
      rw [Client.upload_unreadable client hcontent]
      exact ⟨[], .text "", .refl w, untried _⟩
    | ok content =>
      obtain ⟨calls, hf, hcalls⟩ := Client.upload_calls client hcontent
      exact ⟨talkOf calls, content, hf, tried hcalls⟩
  · obtain ⟨calls, hf, hcalls⟩ := g.run_unrepeated w
    exact ⟨calls, hf, fun c _ => c.processings_le_one, hcalls⟩

end ServerDeploy
