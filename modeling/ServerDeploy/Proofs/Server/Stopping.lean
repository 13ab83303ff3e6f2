import ServerDeploy.Proofs.Server.Denial
import ServerDeploy.Proofs.Session.Reaching
import ServerDeploy.Proofs.Session.Survey

/-! How a server is started and stopped. Its process is there once it was launched. A server that says it
runs is asked to shut down; then its process is waited for, by itself, after it was told to end, or
after it was killed. What is no error for the operator breaks the stop off before that. -/

namespace ServerDeploy

open Run Connection

variable {σ : Type}

namespace ServerProcess

/-- A process was waited for until it had exited. -/
def Awaited (p : ServerProcess) : Prop := ∃ timeout code, .wait timeout (.exited code) ∈ p.events

/-- What becomes of a process that is left in place: more is noted of it. -/
structure Continues (p p' : ServerProcess) : Prop where
  isLaunched : p'.isLaunched = p.isLaunched
  events : p.events <+: p'.events

variable {p p' p'' : ServerProcess}

theorem continues_refl (p : ServerProcess) : p.Continues p := ⟨rfl, List.prefix_refl _⟩

theorem Continues.trans (h : p.Continues p') (h' : p'.Continues p'') : p.Continues p'' :=
  ⟨h'.isLaunched.trans h.isLaunched, h.events.trans h'.events⟩

theorem continues_polled (p : ServerProcess) : p.Continues p.polled := by
  unfold polled
  split
  · exact ⟨rfl, List.prefix_append _ _⟩
  · exact continues_refl p

theorem Awaited.continues (h : p.Awaited) (hp : p.Continues p') : p'.Awaited := by
  obtain ⟨timeout, code, hwait⟩ := h
  exact ⟨timeout, code, hp.events.subset hwait⟩

theorem awaited_polled : p.polled.Awaited ↔ p.Awaited := by
  refine ⟨fun ⟨timeout, code, hwait⟩ => ⟨timeout, code, ?_⟩, fun h => h.continues (continues_polled p)⟩
  unfold polled at hwait
  split at hwait
  · rcases List.mem_append.mp hwait with hwait | hwait
    · exact hwait
    · simp at hwait
  · exact hwait

theorem launch_cases (p : ServerProcess) (command : List String) (directory : String) :
    (∃ reason, p.launch command directory = (some reason, p.note (.launch command directory))) ∨
      p.launch command directory =
        (none, { p.note (.launch command directory) with isLaunched := true }) := by
  unfold launch
  dsimp only
  cases (p.note (.launch command directory)).launchRefusal with
  | some reason => exact .inl ⟨reason, rfl⟩
  | none => exact .inr rfl

theorem wait_cases (p : ServerProcess) (timeout : Option Seconds) :
    (p.wait timeout).2.isLaunched = p.isLaunched ∧
      (p.wait timeout).2.events = p.events ++ [.wait timeout (p.wait timeout).1] ∧
      (timeout = none → ∃ code, (p.wait timeout).1 = .exited code) := by
  refine ⟨rfl, rfl, ?_⟩
  rintro rfl
  unfold wait
  dsimp only
  cases (next (.exited 0) p.waits).1 with
  | exited code => exact ⟨code, rfl⟩
  | timedOut => exact ⟨0, rfl⟩

end ServerProcess

open ServerProcess

namespace Run

variable {α β : Type}

def Minding (body : Run σ α) : Prop := ∀ w : World σ, w.process.Continues (body w).2.process

theorem Sparing.minding {body : Run σ α} (h : Sparing body) : Minding body := by
  intro w
  rw [(h w).process]
  exact continues_refl _

theorem Minding.bind {body : Run σ α} {next : α → Run σ β} (h : Minding body)
    (hnext : ∀ v, Minding (next v)) : Minding (body >>= next) :=
  related_bind (R := fun w w' => w.process.Continues w'.process) (fun h h' => h.trans h') h hnext

theorem Minding.andFinally {body : Run σ α} {after : Run σ Unit} (h : Minding body)
    (h' : Minding after) : Minding (andFinally body after) :=
  related_andFinally (R := fun w w' => w.process.Continues w'.process) (fun h h' => h.trans h') h h'

theorem minding_waitUntil {condition : Run σ Bool} (h : Minding condition)
    (timeout interval : Seconds) : Minding (waitUntil condition timeout interval) := by
  have polled (start checks : Nat) : Minding (pollFrom condition timeout interval start checks) := by
    induction checks with
    | zero => exact (still_pure _).sparing.minding
    | succ checks ih =>
      refine h.bind fun holds => ?_
      split
      · exact (still_pure _).sparing.minding
      have elapsed : Still (hasElapsed start timeout : Run σ Bool) :=
        still_get.bind fun _ => still_pure _
      refine elapsed.sparing.minding.bind fun elapsed => ?_
      split
      · exact (still_pure _).sparing.minding
      · have slept : Sparing (sleep interval.milliseconds : Run σ Unit) := fun _ => ⟨rfl, rfl⟩
        exact slept.minding.bind fun _ => ih
  exact still_get.sparing.minding.bind fun w => polled w.now _

end Run

/-- A shutdown is no look: it has a parameter less than they have. -/
theorem ClientCall.not_isProbe_of_shutdown {c : ClientCall} (h : c.call = shutdownCall) : ¬c.IsProbe := by
  rintro (hprobe | hprobe)
  all_goals
    have hsame := Json.obj.inj (Call.operation.inj (h.symm.trans hprobe))
    exact absurd (congrArg List.length hsame) (by decide)

namespace Server

/-- What is done to a process that is waited for: nothing where it exits in time, and otherwise it is
told to end and then killed. -/
inductive Ladder (timeout : Seconds) : List ProcessEvent → Prop
  | left (code : Int) : Ladder timeout [.wait (some timeout) (.exited code)]
  | terminated (code : Int) : Ladder timeout
      [.wait (some timeout) .timedOut, .terminate, .wait (some timeout) (.exited code)]
  | killed (code : Int) : Ladder timeout [.wait (some timeout) .timedOut, .terminate,
      .wait (some timeout) .timedOut, .kill, .wait none (.exited code)]

theorem Ladder.awaits {timeout : Seconds} {steps : List ProcessEvent} (h : Ladder timeout steps) :
    ∃ timeout code, .wait timeout (.exited code) ∈ steps := by
  cases h with
  | left code => exact ⟨some timeout, code, by simp⟩
  | terminated code => exact ⟨some timeout, code, by simp⟩
  | killed code => exact ⟨none, code, by simp⟩

/-- Waiting for a process goes up the ladder until the process has exited, and changes nothing else. -/
theorem awaitExit_climbs (timeout : Seconds) (w : World σ) : ∃ steps p,
    (awaitExit timeout : Run σ Unit) w = (.ok (), { w with process := p }) ∧ Ladder timeout steps ∧
      p.events = w.process.events ++ steps ∧ p.isLaunched = w.process.isLaunched := by
  obtain ⟨hlaunched₁, hevents₁, -⟩ := wait_cases w.process (some timeout)
  unfold awaitExit
  dsimp only
  rw [bind_of_ok (withProcess_apply _ w)]
  -- each rung is a wait that either sees the process exit or leads to the next one
  cases hwait₁ : (w.process.wait (some timeout)).1 with
  | exited code =>
    rw [hwait₁] at hevents₁
    exact ⟨_, _, rfl, .left code, hevents₁, hlaunched₁⟩
  | timedOut =>
    rw [hwait₁] at hevents₁
    dsimp only
    generalize (w.process.wait (some timeout)).2 = p₁ at hevents₁ hlaunched₁
    obtain ⟨hlaunched₂, hevents₂, -⟩ := wait_cases (p₁.note .terminate) (some timeout)
    rw [bind_of_ok (withProcess_apply _ _), bind_of_ok (withProcess_apply _ _)]
    dsimp only
    cases hwait₂ : ((p₁.note .terminate).wait (some timeout)).1 with
    | exited code =>
      rw [hwait₂] at hevents₂
      refine ⟨_, _, rfl, .terminated code, ?_, hlaunched₂.trans hlaunched₁⟩
      rw [hevents₂]
      simp [ServerProcess.note, hevents₁]
    | timedOut =>
      rw [hwait₂] at hevents₂
      dsimp only
      generalize ((p₁.note .terminate).wait (some timeout)).2 = p₂ at hevents₂ hlaunched₂
      obtain ⟨hlaunched₃, hevents₃, hexited⟩ := wait_cases (p₂.note .kill) none
      obtain ⟨code, hcode⟩ := hexited rfl
      rw [hcode] at hevents₃
      rw [bind_of_ok (withProcess_apply _ _), bind_of_ok (withProcess_apply _ _)]
      refine ⟨_, _, rfl, .killed code, ?_, hlaunched₃.trans (hlaunched₂.trans hlaunched₁)⟩
      rw [hevents₃]
      simp [ServerProcess.note, hevents₁, hevents₂]

theorem minding_awaitExit (timeout : Seconds) : Minding (awaitExit timeout : Run σ Unit) := by
  intro w
  obtain ⟨steps, p, hexit, -, hevents, hlaunched⟩ := awaitExit_climbs timeout w
  rw [hexit]
  exact ⟨hlaunched, steps, hevents.symm⟩

theorem minding_exitCode? : Minding (exitCode? : Run σ (Option Int)) := by
  intro w
  rw [exitCode?_apply]
  exact continues_polled w.process

theorem start_launches (c : ServerConfig) {w : World σ} (hidle : w.process.isLaunched = false) :
    (start c w).2.process.isLaunched = true ↔ (start c w).1 = .ok () := by
  have hdead : (isAlive : Run σ Bool) w = (.ok false, w) := by
    unfold isAlive
    rw [bind_of_ok (isLaunched_apply w), if_neg (by simp [hidle])]
    rfl
  have hcommand := c.still_launchCommand w
  unfold start
  rw [bind_of_ok hdead, if_neg Bool.false_ne_true]
  dsimp only
  rw [bind_apply]
  rcases hc : c.launchCommand w with ⟨e | command, w₁⟩
  all_goals
    rw [hc] at hcommand
    obtain rfl : w₁ = w := hcommand
  · simp [hidle]
  · dsimp only
    rw [bind_of_ok (withProcess_apply _ _)]
    obtain ⟨reason, hrefused⟩ | hthere := w₁.process.launch_cases command c.home.text
    · rw [hrefused]
      simp [ServerProcess.note, hidle]
    · rw [hthere]
      simp

variable [Endpoint σ] {w w' w₁ : World σ}

theorem minding_isRunning : Minding (isRunning : Run σ Bool) := by
  intro w
  rw [process_isRunning]
  exact continues_polled w.process

theorem Affirms.reaches {id : Nat} (h : Affirms w id w₁ w') :
    getClient w' = (.ok id, w') ∧ w'.Reaches id := by
  obtain ⟨r, hread, -, -⟩ := h.read
  have hkept := Session.keeps_of_steps (Client.execute_steps id Client.stateQuery w₁)
  rw [hread] at hkept
  have hconnection : w'.connection = w₁.connection := hkept.connection
  have hheld : w'.connection.client = some id := by
    rw [hconnection]
    exact held_of_getClient h.client
  exact ⟨getClient_of_held hheld, Client.reaches_of_execute hread⟩

theorem requestShutdown_apply (w : World σ) : requestShutdown w =
    match isRunning w with
    | (.error (.deploy _), w₁) => (.ok (), w₁)
    | (.error e, w₁) => (.error e, w₁)
    | (.ok false, w₁) => (.ok (), w₁)
    | (.ok true, w₁) =>
      match (getClient >>= Client.shutdown) w₁ with
      | (.ok _, w₂) => (.ok (), w₂)
      | (.error (.deploy _), w₂) => (.ok (), w₂)
      | (.error e, w₂) => (.error e, w₂) := by
  unfold requestShutdown
  rw [tryCatch_apply, bind_apply]
  rcases isRunning w with ⟨e | running, w₁⟩
  · cases e <;> rfl
  cases running with
  | false => rfl
  | true =>
    dsimp only
    rw [if_pos rfl, bind_apply, bind_apply]
    rcases getClient w₁ with ⟨e | id, w₂⟩
    · cases e <;> rfl
    dsimp only
    rw [bind_apply]
    rcases Client.shutdown id w₂ with ⟨e | r, w₃⟩
    · cases e <;> rfl
    · rfl

theorem ne_deploy_of_requestShutdown {e : Fault} (h : requestShutdown w = (.error e, w')) :
    ∀ d, e ≠ .deploy d := by
  rintro d rfl
  rw [requestShutdown_apply] at h
  rcases hr : isRunning w with ⟨e | running, w₁⟩
  · rw [hr] at h
    cases e <;> cases h
  rw [hr] at h
  cases running with
  | false => cases h
  | true =>
    dsimp only at h
    rcases hs : (getClient >>= Client.shutdown) w₁ with ⟨e | r, w₂⟩
    · rw [hs] at h
      cases e <;> cases h
    · rw [hs] at h
      cases h

theorem process_requestShutdown (w : World σ) : (requestShutdown w).2.process = w.process.polled := by
  have hlook := process_isRunning w
  -- the shutdown goes over the connection, which leaves the process alone
  have asked (w₁ : World σ) :
      ((getClient >>= Client.shutdown : Run σ Outcome) w₁).2.process = w₁.process :=
    (sparing_getClient.bind (fun id => (Client.execute_steps id _).sparing) w₁).process
  rw [requestShutdown_apply]
  rcases hr : isRunning w with ⟨e | running, w₁⟩
  · rw [hr] at hlook
    cases e <;> exact hlook
  rw [hr] at hlook
  cases running with
  | false => exact hlook
  | true =>
    have hasked := (asked w₁).trans hlook
    dsimp only
    rcases hs : (getClient >>= Client.shutdown) w₁ with ⟨e | r, w₂⟩
    · rw [hs] at hasked
      cases e <;> exact hasked
    · rw [hs] at hasked
      exact hasked

theorem requestShutdown_of_affirms {id : Nat} (h : Affirms w id w₁ w')
    (hr : isRunning w = (.ok true, w')) : (requestShutdown w).2 = (Client.shutdown id w').2 := by
  rw [requestShutdown_apply, hr]
  dsimp only
  rw [bind_of_ok h.reaches.1]
  rcases Client.shutdown id w' with ⟨e | r, w₂⟩
  · cases e <;> rfl
  · rfl

theorem requestShutdown_of_no (h : (isRunning w).1 ≠ .ok true) :
    (requestShutdown w).2 = (isRunning w).2 := by
  rw [requestShutdown_apply]
  rcases hr : isRunning w with ⟨e | running, w₁⟩
  · cases e <;> rfl
  cases running with
  | false => rfl
  | true =>
    rw [hr] at h
    exact absurd rfl h

/-- A server is told to shut down exactly when it says that it runs. -/
theorem requestShutdown_sends (w : World σ) : ∃ calls : List ClientCall,
    w.Follows (talkOf calls) (requestShutdown w).2 ∧
      ((∃ c ∈ calls, c.call = ClientCall.shutdownCall) ↔ (isRunning w).1 = .ok true) := by
  obtain ⟨looks, hlooked, hlooks⟩ := isRunning_looks w
  have hnone : ¬∃ c ∈ looks, c.call = ClientCall.shutdownCall :=
    fun ⟨c, hc, hcall⟩ => ClientCall.not_isProbe_of_shutdown hcall (hlooks c hc)
  by_cases hyes : (isRunning w).1 = .ok true
  · have hr : isRunning w = (.ok true, (isRunning w).2) := Prod.ext hyes rfl
    obtain ⟨id, w₁, haffirms⟩ := affirms_of_isRunning hr
    have hfinite : (Json.obj (Operation.make "shutdown" .empty [])).hasNonFinite = false := rfl
    obtain ⟨c, hcall, hsent, -⟩ := Client.execute_reaches haffirms.reaches.2 hfinite
    refine ⟨looks ++ [c], ?_, fun _ => hyes, fun _ => ⟨c, by simp, hcall⟩⟩
    rw [requestShutdown_of_affirms haffirms hr, talkOf_append, talkOf_singleton]
    exact hlooked.trans hsent
  · rw [requestShutdown_of_no hyes]
    exact ⟨looks, hlooked, fun h => absurd h hnone, fun h => absurd h hyes⟩

theorem stop_apply (timeout : Seconds) (w : World σ) : stop timeout w =
    match requestShutdown w with
    | (.error e, w₁) => (.error e, (close w₁).2)
    | (.ok (), w₁) =>
      if w₁.process.isLaunched then awaitExit timeout (close w₁).2 else (.ok (), (close w₁).2) := by
  unfold stop
  rw [bind_apply, andFinally_close]
  rcases requestShutdown w with ⟨e | _, w₁⟩
  · rfl
  · dsimp only
    rw [bind_of_ok (isLaunched_apply _), (sparing_close w₁).process]
    split <;> rfl

/-- All that a stop says to the server is said before the process is waited for. -/
theorem stop_sends (timeout : Seconds) (w : World σ) : ∃ calls : List ClientCall,
    w.Follows (talkOf calls) (stop timeout w).2 ∧
      ((∃ c ∈ calls, c.call = ClientCall.shutdownCall) ↔ (isRunning w).1 = .ok true) := by
  obtain ⟨calls, hsent, hshutdown⟩ := requestShutdown_sends w
  refine ⟨calls, ?_, hshutdown⟩
  rw [stop_apply]
  rcases hr : requestShutdown w with ⟨e | _, w₁⟩
  all_goals
    rw [hr] at hsent
    have hclosed := silent_close w₁
  · simpa using hsent.trans hclosed
  · have hawaited := silent_awaitExit timeout (close w₁).2
    dsimp only
    split
    · simpa using (hsent.trans hclosed).trans hawaited
    · simpa using hsent.trans hclosed

/-- How a stop ends for a process that is there: it has been waited for, or the stop was broken off and
it was only asked. -/
theorem stop_cases (timeout : Seconds) (hlaunched : w.process.isLaunched = true) :
    (∃ steps, (requestShutdown w).1 = .ok () ∧ (stop timeout w).1 = .ok () ∧ Ladder timeout steps ∧
      (stop timeout w).2.process.events = w.process.polled.events ++ steps) ∨
    ∃ e, (requestShutdown w).1 = .error e ∧ (∀ d, e ≠ .deploy d) ∧ (stop timeout w).1 = .error e ∧
      (stop timeout w).2.process = w.process.polled := by
  have hprocess := process_requestShutdown w
  rw [stop_apply]
  rcases hr : requestShutdown w with ⟨e | _, w₁⟩
  · rw [hr] at hprocess
    refine .inr ⟨e, rfl, ne_deploy_of_requestShutdown hr, rfl, ?_⟩
    exact (sparing_close w₁).process.trans hprocess
  · rw [hr] at hprocess
    have hthere : w₁.process.isLaunched = true := by
      rw [show w₁.process = _ from hprocess, isLaunched_polled, hlaunched]
    obtain ⟨steps, p, hexit, hladder, hevents, -⟩ := awaitExit_climbs timeout (close w₁).2
    dsimp only
    rw [if_pos hthere, hexit]
    refine .inl ⟨steps, rfl, rfl, hladder, ?_⟩
    rw [hevents, (sparing_close w₁).process, show w₁.process = _ from hprocess]

theorem minding_stop (timeout : Seconds) : Minding (stop timeout : Run σ Unit) := by
  have requested : Minding (requestShutdown : Run σ Unit) := by
    intro w
    rw [process_requestShutdown]
    exact continues_polled w.process
  refine (requested.andFinally sparing_close.minding).bind fun _ => ?_
  refine Minding.bind (fun w => continues_refl _) fun launched => ?_
  split
  · exact minding_awaitExit timeout
  · exact (still_pure _).sparing.minding

theorem minding_waitForStart (timeout interval : Seconds) :
    Minding (waitForStart timeout interval : Run σ Unit) := by
  refine (minding_waitUntil minding_isRunning timeout interval).bind fun started => ?_
  split
  · refine minding_exitCode?.bind fun code => (minding_stop _).bind fun _ => ?_
    cases code
    · exact (still_throw _).sparing.minding
    · exact (still_throw _).sparing.minding
  · exact (still_pure _).sparing.minding

end Server

end ServerDeploy
