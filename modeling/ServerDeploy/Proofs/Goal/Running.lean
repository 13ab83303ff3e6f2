import ServerDeploy.Proofs.Goal.Calls
import ServerDeploy.Proofs.Goal.Endings
import ServerDeploy.Proofs.Goal.Gating
import ServerDeploy.Proofs.Server.Stopping

/-! Runs of a server with a deployment. A run that has deployed goes on until a look at the server says
no; however the work ends, the server is stopped after it, and its process is waited for unless the stop
is broken off. -/

namespace ServerDeploy

open Run Connection Server

variable {σ : Type}

namespace Task

/-- What comes before the server is there: its archive and its home are checked, and it is launched. -/
def launch (config : ServerConfig) (archive : Archive) : Run σ Unit := do
  requireArchive archive (← Run.absolute archive.path)
  config.validate
  Server.start config

theorem launch_launches (config : ServerConfig) (archive : Archive) {w : World σ}
    (hidle : w.process.isLaunched = false) :
    (launch config archive w).2.process.isLaunched = true ↔ (launch config archive w).1 = .ok () := by
  have hshown : Still (Run.absolute archive.path : Run σ Path) := still_get.bind fun _ => still_pure _
  have checked : Still (do
      requireArchive archive (← Run.absolute archive.path)
      config.validate : Run σ Unit) :=
    hshown.bind fun shown => (still_requireArchive archive shown).bind fun _ => config.still_validate
  have hlaunch : launch config archive = ((do
      requireArchive archive (← Run.absolute archive.path)
      config.validate) >>= fun _ => Server.start config : Run σ Unit) := by
    unfold launch
    simp only [bind_assoc]
  have hchecked := checked w
  rw [hlaunch, bind_apply]
  rcases hc : (do
    requireArchive archive (← Run.absolute archive.path)
    config.validate : Run σ Unit) w with ⟨e | _, w₁⟩
  all_goals
    rw [hc] at hchecked
    obtain rfl : w₁ = w := hchecked
  · simp [hidle]
  · exact Server.start_launches config hidle

variable [Endpoint σ] {w w' : World σ}

/-- Looks that say yes, with a second after each. -/
inductive Watches : Nat → World σ → World σ → Prop
  | nothing (w : World σ) : Watches 0 w w
  | more {looks : Nat} {w w₁ last : World σ} (h : isRunning w = (.ok true, w₁))
      (hrest : Watches looks (w₁.sleep 1000) last) : Watches (looks + 1) w last

/-- Blocking ends well with the first look that says no, whatever its reason. -/
theorem blockWhileRunning_ok_iff {patience : Nat} : blockWhileRunning patience w = (.ok (), w') ↔
    ∃ looks last d, looks < patience ∧ Watches looks w last ∧ Denies d last w' := by
  induction patience generalizing w with
  | zero => exact ⟨nofun, fun ⟨_, _, _, hlooks, _⟩ => absurd hlooks (Nat.not_lt_zero _)⟩
  | succ patience ih =>
    unfold blockWhileRunning
    rw [bind_apply]
    rcases hr : isRunning w with ⟨e | _ | _, w₁⟩
    · refine ⟨nofun, fun ⟨looks, last, d, _, hwatched, hdenied⟩ => ?_⟩
      cases hwatched with
      | nothing =>
        rw [isRunning_of_denies hdenied] at hr
        cases hr
      | more h =>
        rw [h] at hr
        cases hr
    · dsimp only
      rw [if_neg Bool.false_ne_true, pure_apply]
      constructor
      · intro h
        obtain ⟨-, rfl⟩ := Prod.mk.inj h
        obtain ⟨d, hd⟩ := denies_of_isRunning hr
        exact ⟨0, w, d, Nat.succ_pos _, .nothing w, hd⟩
      · rintro ⟨looks, last, d, -, hwatched, hdenied⟩
        cases hwatched with
        | nothing =>
          rw [isRunning_of_denies hdenied] at hr
          obtain ⟨-, rfl⟩ := Prod.mk.inj hr
          rfl
        | more h =>
          rw [h] at hr
          cases hr
    · have hslept : Run.sleep 1000 w₁ = (.ok (), w₁.sleep 1000) := rfl
      dsimp only
      rw [if_pos rfl, bind_of_ok hslept, ih]
      constructor
      · rintro ⟨looks, last, d, hlooks, hwatched, hdenied⟩
        exact ⟨looks + 1, last, d, Nat.succ_lt_succ hlooks, .more hr hwatched, hdenied⟩
      · rintro ⟨looks, last, d, hlooks, hwatched, hdenied⟩
        cases hwatched with
        | nothing =>
          rw [isRunning_of_denies hdenied] at hr
          cases hr
        | more h hrest =>
          rw [h] at hr
          obtain ⟨-, rfl⟩ := Prod.mk.inj hr
          exact ⟨_, last, d, Nat.lt_of_succ_lt_succ hlooks, hrest, hdenied⟩

theorem continues_of_watches {looks : Nat} {last : World σ} (h : Watches looks w last) :
    w.process.Continues last.process := by
  induction h with
  | nothing w => exact ServerProcess.continues_refl _
  | @more _ w _ _ hyes _ ih =>
    have hlook := minding_isRunning w
    rw [hyes] at hlook
    exact hlook.trans ih

theorem minding_blockWhileRunning (patience : Nat) :
    Minding (blockWhileRunning patience : Run σ Unit) := by
  induction patience with
  | zero => exact (still_throw _).sparing.minding
  | succ patience ih =>
    refine minding_isRunning.bind fun running => ?_
    split
    · have slept : Sparing (Run.sleep 1000 : Run σ Unit) := fun _ => ⟨rfl, rfl⟩
      exact slept.minding.bind fun _ => ih
    · exact (still_pure _).sparing.minding

variable (config : ServerConfig) (archive : Archive) (force : Bool)

/-- What is done with a server up to where the run blocks. -/
def deployOn : Run σ DeploymentResult := do
  waitForStart config.startupTimeout startInterval
  let client ← getClient
  let r ← DeploymentPlan.run client (.deploying force true) archive none
  if r.requiresRestart then
    let _ ← Client.executeRequired client (.obj (Operation.make "reload" .empty []))
  pure r

theorem deployAndBlock_eq : deployAndBlock config archive force =
    (do
      let r ← deployOn config archive force
      blockWhileRunning (← get).terminal.patience
      pure r : Run σ DeploymentResult) := by
  unfold deployAndBlock deployOn
  simp only [bind_assoc]
  refine bind_congr fun _ => bind_congr fun client => bind_congr fun r => ?_
  split
  · simp only [bind_assoc, pure_bind]
  · rw [pure_bind]

theorem minding_deployOn : Minding (deployOn config archive force : Run σ DeploymentResult) := by
  refine (minding_waitForStart _ _).bind fun _ => sparing_getClient.minding.bind fun client => ?_
  refine (DeploymentPlan.run_steps client _ _ _).sparing.minding.bind fun r => ?_
  dsimp only
  split
  · exact (Client.executeRequired_steps client _).sparing.minding.bind fun _ =>
      (still_pure _).sparing.minding
  · exact (still_pure _).sparing.minding

theorem minding_deployAndBlock :
    Minding (deployAndBlock config archive force : Run σ DeploymentResult) := by
  rw [deployAndBlock_eq]
  refine (minding_deployOn config archive force).bind fun r => ?_
  refine still_get.sparing.minding.bind fun w => ?_
  exact (minding_blockWhileRunning _).bind fun _ => (still_pure _).sparing.minding

theorem runServer_eq : runServer config archive force =
    (launch config archive >>= fun _ =>
      andFinally (deployAndBlock config archive force) (stop defaultStopTimeout) :
        Run σ DeploymentResult) := by
  unfold runServer launch
  simp only [bind_assoc]

variable {config : ServerConfig} {archive : Archive} {force : Bool}

theorem blocked_of_deployAndBlock {r : DeploymentResult}
    (h : deployAndBlock config archive force w = (.ok r, w')) : ∃ blocked,
      deployOn config archive force w = (.ok r, blocked) ∧
        blockWhileRunning blocked.terminal.patience blocked = (.ok (), w') := by
  rw [deployAndBlock_eq] at h
  obtain ⟨r', blocked, hdeployed, h⟩ := ok_of_bind h
  rw [bind_of_ok (get_apply blocked)] at h
  obtain ⟨_, w₁, hblocked, h⟩ := ok_of_bind h
  rw [pure_apply] at h
  obtain ⟨hr, rfl⟩ := Prod.mk.inj h
  obtain rfl := Except.ok.inj hr
  exact ⟨blocked, hdeployed, hblocked⟩

end Task

namespace Goal

variable [Endpoint σ] {g : Goal} {config : ServerConfig} {archive : Archive} {force : Bool}
  {w w' : World σ}

def launching (g : Goal) (config : ServerConfig) (archive : Archive) : Run σ Unit := do
  g.approach
  Task.launch config archive

theorem run_of_running (htask : g.task = .run config archive force) {w₀ : World σ}
    (happroach : g.approach w = (.ok (), w₀)) : g.run w =
      ((Task.runServer config archive force w₀).1.map .deployed,
        (close (Task.runServer config archive force w₀).2).2) := by
  have hadmitted : g.admission w₀ = (.ok true, w₀) := by
    unfold admission
    rw [htask]
    rfl
  have hexecute : (Task.run config archive force).execute =
      (GoalResult.deployed <$> Task.runServer config archive force : Run σ GoalResult) := rfl
  have hon := goesOn_of_admission happroach hadmitted
  unfold GoesOn at hon
  rw [hon, andFinally_close, htask, hexecute, map_world, ← bind_pure_comp, bind_apply]
  rcases Task.runServer config archive force w₀ with ⟨e | r, w₁⟩ <;> rfl

/-- How a run goes on from a server that was launched: whatever comes of the work, the server is
stopped, and then the connection closed. -/
theorem run_of_launched (htask : g.task = .run config archive force) {launched : World σ}
    (hlaunched : g.launching config archive w = (.ok (), launched)) : g.run w =
      ((stop defaultStopTimeout (Task.deployAndBlock config archive force launched).2).1 >>= fun _ =>
          (Task.deployAndBlock config archive force launched).1.map .deployed,
        (close (stop defaultStopTimeout
          (Task.deployAndBlock config archive force launched).2).2).2) := by
  obtain ⟨_, w₀, happroach, hlaunch⟩ := ok_of_bind hlaunched
  rw [run_of_running htask happroach, Task.runServer_eq, bind_of_ok hlaunch, andFinally_apply]
  rcases (stop defaultStopTimeout (Task.deployAndBlock config archive force launched).2).1 with e | _
  · rfl
  · rcases (Task.deployAndBlock config archive force launched).1 with e | r <;> rfl

/-- A run either launches its server or ends in an error without a process. -/
theorem launching_cases (htask : g.task = .run config archive force)
    (hidle : w.process.isLaunched = false) :
    (∃ e, (g.run w).1 = .error e ∧ (g.run w).2.process.isLaunched = false) ∨
    ∃ launched, g.launching config archive w = (.ok (), launched) ∧
      launched.process.isLaunched = true := by
  have happroached := (g.sparing_approach w).process
  rcases happroach : g.approach w with ⟨e | _, w₀⟩
  · rw [happroach] at happroached
    refine .inl ⟨e, ?_⟩
    rw [run_apply, bind_apply, happroach]
    exact ⟨rfl, by rw [show w₀.process = _ from happroached, hidle]⟩
  rw [happroach] at happroached
  have hidle₀ : w₀.process.isLaunched = false := by
    rw [show w₀.process = _ from happroached, hidle]
  have hlaunches := Task.launch_launches config archive hidle₀
  rcases hlaunch : Task.launch config archive w₀ with ⟨e | _, launched⟩
  · rw [hlaunch] at hlaunches
    refine .inl ⟨e, ?_⟩
    rw [run_of_running htask happroach, Task.runServer_eq, bind_apply, hlaunch]
    refine ⟨rfl, ?_⟩
    rw [(sparing_close launched).process]
    exact Bool.eq_false_iff.mpr fun hthere => nomatch hlaunches.1 hthere
  · rw [hlaunch] at hlaunches
    refine .inr ⟨launched, ?_, hlaunches.2 rfl⟩
    unfold launching
    rw [bind_of_ok happroach, hlaunch]

/-- A run gives out its result once a look at the server has said no. When the final stop begins the
process is known to have exited only if that was the reason; for any other it was just heard to run, and
the stop then shuts the server down exactly if it says that it runs. -/
theorem run_blocks (htask : g.task = .run config archive force)
    (hidle : w.process.isLaunched = false) {result : GoalResult} (h : g.run w = (.ok result, w')) :
    ∃ (launched : World σ) (r : DeploymentResult) (blocked : World σ) (looks : Nat)
      (last : World σ) (d : Denial) (stopping : World σ) (calls : List ClientCall),
      g.launching config archive w = (.ok (), launched) ∧
      Task.deployOn config archive force launched = (.ok r, blocked) ∧ result = .deployed r ∧
      looks < blocked.terminal.patience ∧ Task.Watches looks blocked last ∧ Denies d last stopping ∧
      (∀ code, stopping.process.events.getLast? = some (.poll (.exited code)) ↔ d = .exited code) ∧
      ((∀ code, d ≠ .exited code) → stopping.process.events.getLast? = some (.poll .running)) ∧
      stopping.process.events <+: w'.process.events ∧ stopping.Follows (talkOf calls) w' ∧
      ((∃ c ∈ calls, c.call = ClientCall.shutdownCall) ↔ (isRunning stopping).1 = .ok true) := by
  obtain ⟨e, he, -⟩ | ⟨launched, hlaunching, hthere⟩ := launching_cases htask hidle
  · rw [h] at he
    cases he
  rw [run_of_launched htask hlaunching] at h
  rcases hwork : Task.deployAndBlock config archive force launched with ⟨e | r, stopping⟩
  · rw [hwork] at h
    obtain ⟨hresult, -⟩ := Prod.mk.inj h
    rcases hs : (stop defaultStopTimeout stopping).1 with e' | _
    all_goals
      rw [hs] at hresult
      cases hresult
  rw [hwork] at h
  obtain ⟨hresult, hw'⟩ := Prod.mk.inj h
  have hr : result = .deployed r := by
    rcases hs : (stop defaultStopTimeout stopping).1 with e | _
    · rw [hs] at hresult
      cases hresult
    · rw [hs] at hresult
      exact (Except.ok.inj hresult).symm
  obtain ⟨blocked, hdeployed, hblocked⟩ := Task.blocked_of_deployAndBlock hwork
  obtain ⟨looks, last, d, hlooks, hwatched, hdenied⟩ := Task.blockWhileRunning_ok_iff.1 hblocked
  -- the process is still there at the last look, since nothing on the way there takes it away
  have hlast : last.process.isLaunched = true := by
    have hdone := (Task.minding_deployOn config archive force launched).isLaunched
    rw [hdeployed] at hdone
    rw [(Task.continues_of_watches hwatched).isLaunched, show blocked.process.isLaunched = _ from hdone,
      hthere]
  obtain ⟨hexited, hrunning⟩ := getLast?_of_denies hlast hdenied
  obtain ⟨calls, hsent, hshutdown⟩ := stop_sends defaultStopTimeout stopping
  have hclosed := silent_close (stop defaultStopTimeout stopping).2
  have hstopped := (minding_stop defaultStopTimeout stopping).events
  refine ⟨launched, r, blocked, looks, last, d, stopping, calls, hlaunching, hdeployed, hr, hlooks,
    hwatched, hdenied, hexited, hrunning, ?_, ?_, hshutdown⟩
  · rw [← hw', (sparing_close _).process]
    exact hstopped
  · rw [← hw']
    simpa using hsent.trans hclosed

/-- A server's home beside an archive. -/
def shop : Files :=
  ⟨[(["work"], .directory), (["work", "app.war"], .file (.text "war bytes")),
    (["work", "jb"], .directory), (["work", "jb", "jboss-modules.jar"], .file (.text "jar")),
    (["work", "jb", "modules"], .directory)]⟩

def shopServer : ServerConfig :=
  ⟨.ofText "/work/jb", none, none, none, [], none, none, [], .whole 60⟩

/-- A run in the shop, with the settings file it names, if any. -/
def runningShop (serverId settingsFile : Option String) : Goal :=
  ⟨⟨"localhost", 9990, none, none, serverId, settingsFile, .whole 60, none, none⟩,
    .run shopServer ⟨.ofText "app.war", none⟩ true⟩

def succeeded (result : Json) : Reply :=
  .answer 200 (.json (.obj [("outcome", .str "success"), ("result", result)]))

/-- A server that is still starting at the first look after the reload that its deployment needed. -/
def reloadingServer : World Script :=
  { World.quiet [
      succeeded (.str "STANDALONE"), succeeded (.str "running"), succeeded (.arr []),
      succeeded (.obj [("BYTES_VALUE", .str "aGFzaA==")]),
      succeeded (.obj [("step-1", .obj [("outcome", .str "success")]),
        ("step-2", .obj [("outcome", .str "success"), ("response-headers",
          .obj [("operation-requires-reload", .bool true),
            ("process-state", .str "reload-required")])])]),
      succeeded .null, succeeded (.str "starting"), succeeded (.str "running"), succeeded .null]
      (.ofText "/work") (.ofText "/home") with
    files := shop
    process := ⟨[.running, .running, .running, .exited 0], [], none, false, []⟩
    terminal := ⟨[], 11, [], [], []⟩ }

/-- The run ends well, but it has shut down a process that had not exited. -/
theorem run_blocks_reloading : ∃ (r : DeploymentResult) (w' stopping : World Script)
    (calls : List ClientCall), (runningShop none none).run reloadingServer = (.ok (.deployed r), w') ∧
      stopping.process.events.getLast? = some (.poll .running) ∧
      stopping.process.events <+: w'.process.events ∧ stopping.Follows (talkOf calls) w' ∧
      ∃ c ∈ calls, c.call = ClientCall.shutdownCall := by
  obtain ⟨result, w', h⟩ : ∃ result w',
      (runningShop none none).run reloadingServer = (.ok result, w') := by
    have hgiven : ((runningShop none none).run reloadingServer).1.isOk = true := by decide +kernel
    rcases hr : (runningShop none none).run reloadingServer with ⟨e | result, w'⟩
    · rw [hr] at hgiven
      cases hgiven
    · exact ⟨result, w', rfl⟩
  obtain ⟨launched, r, blocked, looks, last, d, stopping, calls, hlaunching, hdeployed, rfl, -,
    hwatched, hdenied, hexited, hrunning, hprefix, hsent, hshutdown⟩ := run_blocks rfl rfl h
  have hblocked : blocked = (Task.deployOn shopServer ⟨.ofText "app.war", none⟩ true
      ((runningShop none none).launching shopServer ⟨.ofText "app.war", none⟩ reloadingServer).2).2 := by
    rw [hlaunching, hdeployed]
  -- the first look says no, while the process still runs
  have hno : (isRunning blocked).1.toOption = some false := by
    rw [hblocked]
    decide +kernel
  obtain rfl : last = blocked := by
    cases hwatched with
    | nothing => rfl
    | more hyes =>
      rw [hyes] at hno
      cases hno
  have hstopping : stopping = (isRunning last).2 := by rw [isRunning_of_denies hdenied]
  have hlast : stopping.process.events.getLast? = some (.poll .running) := by
    rw [hstopping, hblocked]
    decide +kernel
  have hyes : (isRunning stopping).1.toOption = some true := by
    rw [hstopping, hblocked]
    decide +kernel
  have haffirmed : (isRunning stopping).1 = .ok true := by
    rcases hr : (isRunning stopping).1 with e | running
    · rw [hr] at hyes
      cases hyes
    · rw [hr] at hyes
      rw [Option.some.inj hyes]
  exact ⟨r, w', stopping, calls, h, hlast, hprefix, hsent, hshutdown.2 haffirmed⟩

/-- Once a run has launched its server, the process is waited for to its exit unless the request of the
final stop is broken off, which only Ctrl-C and what is no error for the operator can do. The run then
ends in that fault, and nobody has waited for the process that was not stopped during its start. -/
theorem run_awaits (htask : g.task = .run config archive force)
    (hidle : w.process.isLaunched = false) {r : Except Fault GoalResult} (h : g.run w = (r, w'))
    (hthere : w'.process.isLaunched = true) :
    ∃ launched worked stopping, g.launching config archive w = (.ok (), launched) ∧
      Task.deployAndBlock config archive force launched = (worked, stopping) ∧
      ((∃ steps, (requestShutdown stopping).1 = .ok () ∧ r = worked.map .deployed ∧
          Ladder defaultStopTimeout steps ∧
          w'.process.events = stopping.process.polled.events ++ steps) ∨
        ∃ e, (requestShutdown stopping).1 = .error e ∧ (∀ d, e ≠ .deploy d) ∧
          (w.Initial → e.In .server) ∧ r = .error e ∧ w'.process = stopping.process.polled) ∧
      (w'.process.Awaited ↔ (requestShutdown stopping).1 = .ok () ∨ stopping.process.Awaited) := by
  have hleads := g.leads_run.ended w
  obtain ⟨e, -, hnot⟩ | ⟨launched, hlaunching, hlaunched⟩ := launching_cases htask hidle
  · rw [h, hthere] at hnot
    cases hnot
  have hrun := run_of_launched htask hlaunching
  rw [h] at hrun
  rcases hwork : Task.deployAndBlock config archive force launched with ⟨worked, stopping⟩
  rw [hwork] at hrun
  obtain ⟨hr, hw'⟩ := Prod.mk.inj hrun
  have hstopping : stopping.process.isLaunched = true := by
    have hkept := (Task.minding_deployAndBlock config archive force launched).isLaunched
    rw [hwork] at hkept
    rw [show stopping.process.isLaunched = _ from hkept, hlaunched]
  have hprocess : w'.process = (stop defaultStopTimeout stopping).2.process := by
    rw [hw', (sparing_close _).process]
  refine ⟨launched, worked, stopping, hlaunching, hwork, ?_⟩
  obtain ⟨steps, hrequest, hstop, hladder, hevents⟩ | ⟨e, hrequest, hfault, hstop, hevents⟩ :=
    stop_cases defaultStopTimeout hstopping
  · rw [hstop] at hr
    refine ⟨.inl ⟨steps, hrequest, hr, hladder, hprocess ▸ hevents⟩, ?_⟩
    refine ⟨fun _ => .inl hrequest, fun _ => ?_⟩
    obtain ⟨timeout, code, hwait⟩ := hladder.awaits
    exact ⟨timeout, code, by rw [hprocess, hevents]; exact List.mem_append_right _ hwait⟩
  · rw [hstop] at hr
    refine ⟨.inr ⟨e, hrequest, hfault, fun hw => ?_, hr, hprocess.trans hevents⟩, ?_⟩
    · have hended := hleads hw
      rw [h, show r = .error e from hr] at hended
      have hin := hended.2
      rw [htask] at hin
      exact hin
    · rw [hprocess, hevents, ServerProcess.awaited_polled, hrequest]
      simp

/-- A server that wants credentials, beside a settings file that is no YAML. -/
def challengingServer : World Script :=
  { World.quiet [.challenge, .challenge] (.ofText "/work") (.ofText "/home") with
    files := shop.set ["work", "settings.yaml"] (.file (.text "servers: ["))
    terminal := ⟨[], 4, [], [], []⟩ }

/-- The look before the start and the one in the final stop both fail on the settings file, and the run
ends without waiting for the process it has launched. -/
theorem run_awaits_malformed : ∃ e w',
    (runningShop (some "prod") (some "/work/settings.yaml")).run challengingServer = (.error e, w') ∧
      (∀ d, e ≠ .deploy d) ∧ w'.process.isLaunched = true ∧ ¬w'.process.Awaited := by
  have hthere : ((runningShop (some "prod") (some "/work/settings.yaml")).run
      challengingServer).2.process.isLaunched = true := by decide +kernel
  have hwaits : ((runningShop (some "prod") (some "/work/settings.yaml")).run
      challengingServer).2.process.events.all (fun e => !(e matches .wait _ _)) = true := by
    decide +kernel
  rcases h : (runningShop (some "prod") (some "/work/settings.yaml")).run challengingServer with ⟨r, w'⟩
  rw [h] at hthere hwaits
  have hunawaited : ¬w'.process.Awaited := by
    rintro ⟨timeout, code, hwait⟩
    exact absurd (List.all_eq_true.1 hwaits _ hwait) (by simp)
  obtain ⟨launched, worked, stopping, -, -, hends, hawaited⟩ := run_awaits rfl rfl h hthere
  obtain ⟨-, hrequest, -⟩ | ⟨e, -, hfault, -, rfl, -⟩ := hends
  · exact absurd (hawaited.2 (.inl hrequest)) hunawaited
  · exact ⟨e, w', rfl, hfault, hthere, hunawaited⟩

end Goal

end ServerDeploy
