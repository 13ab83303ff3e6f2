import ServerDeploy.Goal.Selection
import ServerDeploy.Proofs.Artifact.Endings
import ServerDeploy.Proofs.Deployment.Endings
import ServerDeploy.Proofs.Resource.Endings
import ServerDeploy.Proofs.Server.Endings

/-! How goals end. Most reach no further than their server; one also resolves an artifact, and two make
a server home from a distribution. -/

namespace ServerDeploy

open Connection Fault World Run

variable {σ : Type}

namespace Task

/-- How far a task reaches. -/
def reach : Task → Reach
  | .deployArtifact _ _ _ _ _ _ => .repositories
  | _ => .server

theorem ends_requireArchive {reach : Reach} {I : World σ → Prop} (archive : Archive) (shown : Path) :
    Ends reach I (requireArchive archive shown : Run σ Unit) := by
  refine (ends_pathExists _).bind fun found => ?_
  split
  · exact ends_throw trivial
  · exact ends_pure _

variable [Endpoint σ]

theorem ends_addAll {id : Nat} (options : Resource.AddOptions) (profiles : List String)
    (resources : List Resource) :
    Ends .server (Holding id) (addAll id options profiles resources : Run σ GoalResult) := by
  refine ends_holding fun w₀ => ?_
  refine (Resource.closes_addAll options profiles resources).bind fun r => ?_
  obtain ⟨report, _ | fault⟩ := r
  · exact leads_pure fun _ hw => hw.1
  · exact ⟨fun w hw => ⟨hw.1, hw.2 fault rfl⟩⟩

theorem ends_blockWhileRunning (patience : Nat) :
    Ends .server Ready (blockWhileRunning patience : Run σ Unit) := by
  induction patience with
  | zero => exact ends_throw trivial
  | succ patience ih =>
    refine Server.ends_isRunning.bind fun running => ?_
    split
    · exact (ends_sleep steady_ready _).bind fun _ => ih
    · exact ends_pure _

theorem ends_startServer (config : ServerConfig) :
    Ends .server Ready (startServer config : Run σ Unit) :=
  (config.ends_validate).bind fun _ => (Server.ends_start steady_ready config).bind fun _ =>
    Server.ends_waitForStart _ _

/-- A deployment by the client that is given out. -/
theorem ends_deploying (type : DeploymentType) (archive : Archive) (pattern : Option String) :
    Ends .server Ready (do
      let client ← getClient
      .deployed <$> DeploymentPlan.run client type archive pattern : Run σ GoalResult) :=
  ends_getClient_then fun _ => ends_holding fun w₀ => Ends.map (DeploymentPlan.ends_run w₀ _ _ _ _) _

theorem ends_deployAndBlock (config : ServerConfig) (archive : Archive) (force : Bool) :
    Ends .server Ready (deployAndBlock config archive force : Run σ DeploymentResult) := by
  refine (Server.ends_waitForStart _ _).bind fun _ => leads_getClient.bind fun id => ?_
  have blocked (r : DeploymentResult) : Leads (In .server) (Holding id) (do
      blockWhileRunning (← get).terminal.patience
      pure r : Run σ DeploymentResult) (fun _ => Ready) Ready := by
    refine Leads.under ?_ fun _ h => h.toReady
    exact ends_get.bind fun w => (ends_blockWhileRunning _).bind fun _ => ends_pure _
  have deployed : Leads (In .server) (Holding id)
      (DeploymentPlan.run id (.deploying force true) archive none : Run σ DeploymentResult)
      (fun _ => Holding id) Ready :=
    (ends_holding fun w₀ : World σ => DeploymentPlan.ends_run w₀ id _ _ _).mono (fun _ _ h => h)
      fun _ h => h.toReady
  have reloaded : Leads (In .server) (Holding id) (Client.executeRequired id
      (.obj (Operation.make "reload" .empty [])) : Run σ Outcome) (fun _ => Holding id) Ready :=
    (ends_holding fun w₀ : World σ => Client.ends_executeRequired w₀ id _).mono (fun _ _ h => h)
      fun _ h => h.toReady
  refine deployed.bind fun r => ?_
  split
  · exact reloaded.bind fun _ => blocked r
  · exact blocked r

theorem ends_runServer (config : ServerConfig) (archive : Archive) (force : Bool) :
    Ends .server Ready (runServer config archive force : Run σ DeploymentResult) := by
  refine (ends_absolute _).bind fun shown => (ends_requireArchive archive _).bind fun _ => ?_
  refine (config.ends_validate).bind fun _ => (Server.ends_start steady_ready config).bind fun _ => ?_
  exact (ends_deployAndBlock config archive force).andFinally (Server.ends_stop _)

theorem ends_execute (task : Task) : Ends task.reach Ready (task.execute : Run σ GoalResult) := by
  cases task with
  | addResources resources base profiles force dryRun =>
    exact ends_getClient_then fun id => ends_addAll _ _ _
  | executeCommands commands =>
    exact ends_getClient_then fun id => ends_holding fun w₀ =>
      (Hook.ends_run w₀ id _).bind fun _ => ends_pure _
  | deploy archive force enabled pattern =>
    exact (ends_requireArchive archive _).bind fun _ => ends_deploying _ _ _
  | deployArtifact coordinates file name repositories force pattern =>
    refine (repositories.ends_resolveArtifact steady_ready (fun _ h => h.predictable) coordinates
      file).bind fun path => ?_
    exact (ends_deploying _ _ _).within fun _ he => he.of_server _
  | undeployArtifact coordinates file name pattern ignoreMissing =>
    refine ends_getClient_then fun id => ?_
    refine (ends_ofExcept (plainly_undeployed _ _ _ _)).bind fun archive => ?_
    exact ends_holding fun w₀ => Ends.map (DeploymentPlan.ends_run w₀ id _ _ _) _
  | start config => exact (ends_startServer config).bind fun _ => ends_pure _
  | run config archive force => exact Ends.map (ends_runServer config archive force) _
  | shutdown reload timeout =>
    cases reload with
    | true =>
      exact ends_getClient_then fun id => ends_holding fun w₀ =>
        (Client.ends_reload w₀ id _ _).bind fun _ => ends_pure _
    | false =>
      exact ends_getClient_then fun id => ends_holding fun w₀ =>
        (Client.ends_execute w₀ id _).bind fun r =>
          (ends_ofExcept r.plainly_require).bind fun _ => ends_pure _

end Task

/-- Nothing was made or sent in the world so far, and it is predictable. -/
structure World.Initial (w : World σ) : Prop where
  unused : w.Unused
  predictable : w.Predictable

theorem World.steady_initial : Steady (Initial : World σ → Prop) := by
  intro w w' h ha
  refine ⟨⟨?_, ?_, ?_, ?_⟩, steady_predictable w w' h.predictable ha⟩
  · rw [ha.sessions, h.unused.sessions]
  · rw [ha.clients, h.unused.clients]
  · rw [ha.requests, h.unused.requests]
  · rw [ha.journal, h.unused.journal]

theorem Resource.ends_load {reach : Reach} {I : World σ → Prop} (path : Path) :
    Ends reach I (load path : Run σ (List Resource)) := by
  refine (ends_pathExists _).bind fun found => ends_guard trivial ?_
  exact (ends_readText _).bind fun text => ends_ofExcept (plainly_parseText path text)

/-- How far the goal of a name reaches, from its options to its end. -/
def CommandLine.GoalName.reach : GoalName → Reach
  | .deployArtifact => .repositories
  | .start | .run => .distributions
  | _ => .server

namespace Goal

open CommandLine

theorem ends_resourcesOf {reach : Reach} {I : World σ → Prop} (given : Given) :
    Ends reach I (resourcesOf given : Run σ (List Resource)) := by
  unfold resourcesOf
  split
  · exact Resource.ends_load _
  · exact (ends_ofExcept (Resource.plainly_ofOptions _ _ _ _)).bind fun _ => ends_pure _

theorem ends_serverOf (given : Given) :
    Ends .distributions World.Initial (serverOf given : Run σ ServerConfig) := by
  refine ends_get.bind fun w => ?_
  exact (Distribution.ends_resolve steady_initial (fun _ h => h.predictable) _ _).bind fun _ =>
    ends_pure _

/-- The task that a goal selects reaches no further than the goal. -/
theorem leads_taskOf (a : Arguments) : Leads (In a.goal.reach) World.Initial (taskOf a : Run σ Task)
    (fun task w => w.Initial ∧ ∀ e : Fault, e.In task.reach → e.In a.goal.reach) World.Initial := by
  have selected {reach : Reach} {task : Task} (h : ∀ e : Fault, e.In task.reach → e.In reach) :
      Leads (In reach) World.Initial (pure task : Run σ Task)
        (fun task w => w.Initial ∧ ∀ e : Fault, e.In task.reach → e.In reach) World.Initial :=
    leads_pure fun _ hw => ⟨hw, h⟩
  obtain ⟨goal, given⟩ := a
  cases goal with
  | addResource => exact (ends_resourcesOf given).bind fun _ => selected fun _ he => he
  | deploy => exact selected fun _ he => he
  | deployArtifact =>
    refine (ends_ofExcept (plainly_coordinatesOf given)).bind fun _ => ?_
    exact ends_get.bind fun w => selected fun _ he => he
  | undeployArtifact =>
    exact (ends_ofExcept (plainly_coordinatesOf given)).bind fun _ => selected fun _ he => he
  | executeCommands => exact selected fun _ he => he
  | start =>
    exact (Leads.map ((ends_serverOf given).mono (fun _ _ h => ⟨h, fun _ he => he.of_server _⟩)
      fun _ h => h))
  | run => exact (ends_serverOf given).bind fun _ => selected fun _ he => he.of_server _
  | shutdown => exact selected fun _ he => he

theorem leads_select (a : Arguments) : Leads (In a.goal.reach) World.Initial (select a : Run σ Goal)
    (fun g w => w.Initial ∧ ∀ e : Fault, e.In g.task.reach → e.In a.goal.reach) World.Initial := by
  refine ends_get.bind fun w => ?_
  refine (ends_ofExcept (ConnectionSettings.plainly_ofEnvironment _ _)).bind fun settings => ?_
  exact (leads_taskOf a).bind fun task => leads_pure fun _ hw => hw

variable [Endpoint σ]

/-- A goal leaves its connection ready, however it ends. -/
theorem leads_run (g : Goal) : Leads (In g.task.reach) World.Initial (g.run : Run σ GoalResult)
    (fun _ => Ready) Ready := by
  have connected : Leads (In g.task.reach) World.Initial (connect g.settings : Run σ Unit)
      (fun _ => Ready) Ready := leads_modify fun w hw =>
    ⟨hw.predictable.congr rfl rfl rfl, (sound_connectingTo hw.unused _ _ _).congr rfl rfl rfl rfl⟩
  refine connected.bind fun _ => ends_hostAddress.bind fun _ => ?_
  refine Leads.andFinally ?_ ends_close
  have executed (wanted : Bool) : Ends g.task.reach Ready
      (if wanted then g.task.execute else pure .skipped : Run σ GoalResult) := by
    split
    · exact g.task.ends_execute
    · exact ends_pure _
  split
  · exact ((ends_checkPreconditions _ _).within fun _ he => he.of_server _).bind executed
  · exact (ends_pure _).bind executed

end Goal

end ServerDeploy
