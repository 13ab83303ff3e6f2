import ServerDeploy.Proofs.Server.Stopping
import ServerDeploy.Proofs.World.Deadline

/-! Waiting for a server to start. Looks at it take time but never turn the clock back, so the wait comes
to an end; it ends well only on a look that said yes, and a server that is given up has been stopped and
is told apart from one that had left by itself. -/

namespace ServerDeploy

open Run Connection World ServerProcess

variable {σ : Type} [Endpoint σ] {w w' w₁ : World σ}

theorem Session.Step.onward (h : Session.Step w w') : w.Onward w' := by
  cases h with
  | exchange hc => exact onward_refl w
  | challenge h => exact onward_refl w
  | ask hr hd h =>
    rw [h.world]
    exact onward_refl w
  | grant ha hopen hs => exact onward_refl w
  | wait milliseconds => exact Nat.le_add_right _ _

theorem Session.onward_of_steps (h : Session.Steps w w') : w.Onward w' := by
  induction h with
  | refl => exact onward_refl w
  | tail _ hstep ih => exact ih.trans hstep.onward

theorem ServerProcess.ne_deploy_of_verdict {p : ServerProcess} {e : Fault} (h : p.verdict = .error e) :
    ∀ d, e ≠ .deploy d := by
  rintro d rfl
  unfold verdict at h
  split at h
  · split at h <;> cases h
  · cases h

namespace Server

theorem onward_isRunning : Along Onward (isRunning : Run σ Bool) := by
  have connected : Along Onward (getClient : Run σ Nat) :=
    along_getClient onward_refl (·.trans ·) (fun _ h => h.ge) Session.Step.onward
  have closed : Along Onward (close : Run σ Unit) :=
    along_close onward_refl (·.trans ·) (fun _ h => h.ge)
  have ready (id : Nat) : Along Onward (Client.isServerReady id : Run σ Bool) := by
    intro w
    have hread := Session.onward_of_steps (Client.execute_steps id Client.stateQuery w)
    rw [Client.isServerReady_apply]
    rcases hr : Client.execute id Client.stateQuery w with ⟨e | r, w₁⟩
    · rw [hr] at hread
      cases e <;> exact hread
    · rw [hr] at hread
      exact hread
  intro w
  have hconnected := connected w.polled
  rw [isRunning_apply]
  cases w.process.verdict with
  | error e => exact onward_refl w
  | ok code =>
    cases code with
    | some code => exact onward_refl w
    | none =>
      dsimp only
      rcases hc : getClient w.polled with ⟨e | id, w₁⟩
      · rw [hc] at hconnected
        cases e with
        | deploy e => exact hconnected.trans (closed w₁)
        | _ => exact hconnected
      · rw [hc] at hconnected
        exact hconnected.trans (ready id w₁)

/-- Nothing that is reported to the operator breaks a look off. -/
theorem ne_deploy_of_isRunning {e : Fault} (h : isRunning w = (.error e, w')) : ∀ d, e ≠ .deploy d := by
  rintro d rfl
  rw [isRunning_apply] at h
  cases hv : w.process.verdict with
  | error e =>
    rw [hv] at h
    cases h
    exact ServerProcess.ne_deploy_of_verdict hv d rfl
  | ok code =>
    rw [hv] at h
    cases code with
    | some code => cases h
    | none =>
      dsimp only at h
      rcases hc : getClient w.polled with ⟨e | id, w₁⟩
      · rw [hc] at h
        cases e <;> cases h
      · rw [hc] at h
        dsimp only at h
        rw [Client.isServerReady_apply] at h
        rcases hr : Client.execute id Client.stateQuery w₁ with ⟨e | r, w₂⟩
        · rw [hr] at h
          cases e <;> cases h
        · rw [hr] at h
          cases h

/-- What it is to have given a server up that was there: its process was waited for until it had left, no
client is held, and the process had left by itself if its code is named. -/
structure GivenUp (timeout : Seconds) (w : World σ) (problem : StartProblem) (w' : World σ) : Prop where
  awaited : ∃ steps, Ladder defaultStopTimeout steps ∧
    w'.process.events = w.process.polled.polled.events ++ steps
  client : w'.connection.client = none
  exited : ∀ code, problem = .exited code ↔ w.process.poll.1 = .exited code
  running : problem = .notStarted timeout ↔ w.process.poll.1 = .running

theorem waitForStart_apply (timeout interval : Seconds) (w : World σ) :
    waitForStart timeout interval w =
      match waitUntil isRunning timeout interval w with
      | (.error e, w₁) => (.error e, w₁)
      | (.ok true, w₁) => (.ok (), w₁)
      | (.ok false, w₁) =>
        match w₁.process.verdict with
        | .error e => (.error e, w₁.polled)
        | .ok code =>
          match stop defaultStopTimeout w₁.polled with
          | (.error e, w₂) => (.error e, w₂)
          | (.ok (), w₂) =>
            (.error (.deploy (.serverStart (code.elim (.notStarted timeout) .exited))), w₂) := by
  unfold waitForStart
  rw [bind_apply]
  rcases waitUntil isRunning timeout interval w with ⟨e | started, w₁⟩
  · rfl
  cases started with
  | true => rfl
  | false =>
    dsimp only
    rw [Bool.not_false, if_pos rfl, bind_apply, exitCode?_apply]
    cases w₁.process.verdict with
    | error e => rfl
    | ok code =>
      dsimp only
      rw [bind_apply]
      rcases stop defaultStopTimeout w₁.polled with ⟨e | _, w₂⟩
      · rfl
      · cases code <;> rfl

theorem unheld_of_stop (timeout : Seconds) (w : World σ) :
    (stop timeout w).2.connection.client = none := by
  rw [stop_apply]
  rcases requestShutdown w with ⟨e | _, w₁⟩
  · exact unheld_close w₁
  dsimp only
  split
  · obtain ⟨steps, p, hexit, -⟩ := awaitExit_climbs timeout (close w₁).2
    rw [hexit]
    exact unheld_close w₁
  · exact unheld_close w₁

/-- A server that did not come up is stopped, and it is told then whether its process had left. -/
theorem stop_givesUp {timeout : Seconds} {code : Option Int} (hlaunched : w.process.isLaunched = true)
    (hverdict : w.process.verdict = .ok code) (hstop : stop defaultStopTimeout w.polled = (.ok (), w')) :
    GivenUp timeout w (code.elim (.notStarted timeout) .exited) w' := by
  have hthere : w.polled.process.isLaunched = true := (isLaunched_polled _).trans hlaunched
  have hunheld := unheld_of_stop defaultStopTimeout w.polled
  have hcases := stop_cases defaultStopTimeout hthere
  rw [hstop] at hunheld hcases
  have hawaited : ∃ steps, Ladder defaultStopTimeout steps ∧
      w'.process.events = w.process.polled.polled.events ++ steps := by
    rcases hcases with ⟨steps, -, -, hladder, hevents⟩ | ⟨e, -, -, hfailed, -⟩
    · exact ⟨steps, hladder, hevents⟩
    · cases hfailed
  cases code with
  | none =>
    have hpoll := poll_of_silent hlaunched hverdict
    exact ⟨hawaited, hunheld, fun code => by simp [hpoll], by simp [hpoll]⟩
  | some code =>
    have hpoll := (poll_of_exited hverdict).2
    exact ⟨hawaited, hunheld, fun code => by simp [hpoll], by simp [hpoll]⟩

theorem ne_deploy_of_stop {e : Fault} (hlaunched : w.process.isLaunched = true)
    (h : stop defaultStopTimeout w.polled = (.error e, w')) : ∀ d, e ≠ .deploy d := by
  have hcases := stop_cases (w := w.polled) defaultStopTimeout ((isLaunched_polled _).trans hlaunched)
  rw [h] at hcases
  rcases hcases with ⟨steps, -, hok, -⟩ | ⟨e', -, hne, hsame, -⟩
  · cases hok
  · cases hsame
    exact hne

theorem started_of_waitForStart {timeout interval : Seconds} {answer : Except Fault Bool}
    (hwait : waitUntil isRunning timeout interval w = (answer, w₁))
    (h : (waitForStart timeout interval w).1 = .ok ()) : answer = .ok true := by
  rw [waitForStart_apply, hwait] at h
  rcases answer with e | started
  · cases h
  cases started with
  | true => rfl
  | false =>
    dsimp only at h
    cases hv : w₁.process.verdict with
    | error e =>
      rw [hv] at h
      cases h
    | ok code =>
      rw [hv] at h
      dsimp only at h
      rcases hs : stop defaultStopTimeout w₁.polled with ⟨e | _, w₂⟩
      · rw [hs] at h
        cases h
      · rw [hs] at h
        cases h

/-- A world whose clock stands at 900 ms, with a server that left at once. -/
def departed : World Script :=
  { World.quiet ([] : Script) (.ofText "/work") (.ofText "/home") with
    now := 900
    process := ⟨[.exited 1], [], none, true, []⟩ }

theorem departed_early : departed.now < 2 ^ 960 := by
  have hearly : departed.now < 960 := by decide
  generalize 960 = n at hearly ⊢
  exact hearly.trans Nat.lt_two_pow_self

end Server

end ServerDeploy
