import ServerDeploy.Proofs.Server.Looking
import ServerDeploy.Proofs.Session.Sparing

/-! What a look at a server says. The process is asked first if there is one, and one that has exited
settles it; otherwise the answer is what can be read of the server's state, and whatever goes wrong on
the way there counts as a no. -/

namespace ServerDeploy

open Run Connection

variable {σ : Type}

namespace ServerProcess

/-- What a process says when it is asked whether it has exited. One that was not launched has not. -/
def verdict (p : ServerProcess) : Except Fault (Option Int) :=
  if p.isLaunched then
    match p.poll.1 with
    | .running => .ok none
    | .exited code => .ok (some code)
    | .interrupted => .error .interrupted
  else .ok none

/-- A process after it was asked, if it is there. -/
def polled (p : ServerProcess) : ServerProcess := if p.isLaunched then p.poll.2 else p

theorem isLaunched_polled (p : ServerProcess) : p.polled.isLaunched = p.isLaunched := by
  unfold polled
  split <;> rfl

variable {p : ServerProcess}

theorem polled_of_launched (h : p.isLaunched = true) : p.polled = p.poll.2 := if_pos h

theorem events_polled (h : p.isLaunched = true) : p.polled.events = p.events ++ [.poll p.poll.1] := by
  rw [polled_of_launched h]
  rfl

theorem poll_of_silent (h : p.isLaunched = true) (hv : p.verdict = .ok none) : p.poll.1 = .running := by
  unfold verdict at hv
  rw [if_pos h] at hv
  cases hp : p.poll.1 with
  | running => rfl
  | exited code =>
    rw [hp] at hv
    cases hv
  | interrupted =>
    rw [hp] at hv
    cases hv

theorem poll_of_exited {code : Int} (hv : p.verdict = .ok (some code)) :
    p.isLaunched = true ∧ p.poll.1 = .exited code := by
  unfold verdict at hv
  split at hv
  · next h =>
    cases hp : p.poll.1 with
    | running =>
      rw [hp] at hv
      cases hv
    | exited code' =>
      rw [hp] at hv
      cases hv
      exact ⟨h, rfl⟩
    | interrupted =>
      rw [hp] at hv
      cases hv
  · cases hv

end ServerProcess

def World.polled (w : World σ) : World σ := { w with process := w.process.polled }

namespace Server

theorem withProcess_apply {α : Type} (f : ServerProcess → α × ServerProcess) (w : World σ) :
    (withProcess f : Run σ α) w = (.ok (f w.process).1, { w with process := (f w.process).2 }) := rfl

theorem isLaunched_apply (w : World σ) :
    (isLaunched : Run σ Bool) w = (.ok w.process.isLaunched, w) := rfl

theorem exitCode?_apply (w : World σ) :
    (exitCode? : Run σ (Option Int)) w = (w.process.verdict, w.polled) := by
  unfold exitCode? World.polled ServerProcess.verdict ServerProcess.polled
  rw [bind_of_ok (isLaunched_apply w)]
  split
  · rw [bind_of_ok (withProcess_apply _ w)]
    cases w.process.poll.1 <;> rfl
  · rfl

end Server

variable [Endpoint σ]

namespace Client

def stateQuery : Json := .obj (Operation.readAttribute "server-state" .empty)

theorem isServerReady_apply (id : Nat) (w : World σ) : isServerReady id w =
    match execute id stateQuery w with
    | (.ok r, w') => (.ok (r.isSuccessful && !isTransitional r.resultText), w')
    | (.error (.deploy _), w') => (.ok false, w')
    | (.error e, w') => (.error e, w') := by
  have hquery : Json.obj (Operation.readAttribute "server-state" .empty) = stateQuery := rfl
  unfold isServerReady orNo
  rw [tryCatch_apply, bind_apply, hquery]
  rcases execute id stateQuery w with ⟨e | r, w'⟩
  · cases e <;> rfl
  · rfl

end Client

namespace Server

theorem isRunning_apply (w : World σ) : isRunning w =
    match w.process.verdict with
    | .error e => (.error e, w.polled)
    | .ok (some _) => (.ok false, w.polled)
    | .ok none =>
      match getClient w.polled with
      | (.ok id, w₁) => Client.isServerReady id w₁
      | (.error (.deploy _), w₁) => (.ok false, (close w₁).2)
      | (.error e, w₁) => (.error e, w₁) := by
  unfold isRunning
  rw [bind_apply, exitCode?_apply]
  cases w.process.verdict with
  | error e => rfl
  | ok code =>
    cases code with
    | some code => rfl
    | none =>
      dsimp only
      rw [if_neg (by simp), bind_apply, tryCatch_apply, ← bind_pure_comp, bind_apply]
      rcases getClient w.polled with ⟨e | id, w₁⟩
      · cases e with
        | deploy e =>
          dsimp only
          rw [bind_of_ok (close_apply w₁)]
          rfl
        | _ => rfl
      · rfl

/-- Why a look at a server says no. -/
inductive Denial where
  | exited (code : Int)
  /-- There is no client to ask with. -/
  | unreachable (e : DeployError)
  /-- The state could not be read. -/
  | unreadable (e : DeployError)
  /-- The server did not give its state. -/
  | refused (r : Outcome)
  /-- The server is starting or stopping. -/
  | transitional (state : String)

/-- A look at a server that says no for a reason, from the world before it to the one after. -/
inductive Denies : Denial → World σ → World σ → Prop
  | exited {w : World σ} {code : Int} (h : w.process.verdict = .ok (some code)) :
      Denies (.exited code) w w.polled
  | unreachable {w w₁ : World σ} {e : DeployError} (h : w.process.verdict = .ok none)
      (hc : getClient w.polled = (.error (.deploy e), w₁)) : Denies (.unreachable e) w (close w₁).2
  | unreadable {w w₁ w' : World σ} {id : Nat} {e : DeployError} (h : w.process.verdict = .ok none)
      (hc : getClient w.polled = (.ok id, w₁))
      (hr : Client.execute id Client.stateQuery w₁ = (.error (.deploy e), w')) :
      Denies (.unreadable e) w w'
  | refused {w w₁ w' : World σ} {id : Nat} {r : Outcome} (h : w.process.verdict = .ok none)
      (hc : getClient w.polled = (.ok id, w₁))
      (hr : Client.execute id Client.stateQuery w₁ = (.ok r, w')) (hs : r.isSuccessful = false) :
      Denies (.refused r) w w'
  | transitional {w w₁ w' : World σ} {id : Nat} {r : Outcome} (h : w.process.verdict = .ok none)
      (hc : getClient w.polled = (.ok id, w₁))
      (hr : Client.execute id Client.stateQuery w₁ = (.ok r, w')) (hs : r.isSuccessful = true)
      (ht : Client.isTransitional r.resultText = true) : Denies (.transitional r.resultText) w w'

/-- A look that says yes: the process has not exited, and the state was read and is a settled one. -/
structure Affirms (w : World σ) (id : Nat) (w₁ w' : World σ) : Prop where
  verdict : w.process.verdict = .ok none
  client : getClient w.polled = (.ok id, w₁)
  read : ∃ r, Client.execute id Client.stateQuery w₁ = (.ok r, w') ∧ r.isSuccessful = true ∧
    Client.isTransitional r.resultText = false

variable {w w' : World σ}

theorem isRunning_of_denies {d : Denial} (h : Denies d w w') : isRunning w = (.ok false, w') := by
  rw [isRunning_apply]
  cases h with
  | exited h => rw [h]
  | unreachable h hc => rw [h, hc]
  | unreadable h hc hr =>
    rw [h, hc]
    dsimp only
    rw [Client.isServerReady_apply, hr]
  | refused h hc hr hs =>
    rw [h, hc]
    dsimp only
    rw [Client.isServerReady_apply, hr]
    simp [hs]
  | transitional h hc hr hs ht =>
    rw [h, hc]
    dsimp only
    rw [Client.isServerReady_apply, hr]
    simp [ht]

theorem denies_of_isRunning (h : isRunning w = (.ok false, w')) : ∃ d, Denies d w w' := by
  rw [isRunning_apply] at h
  cases hv : w.process.verdict with
  | error e =>
    rw [hv] at h
    cases h
  | ok code =>
    rw [hv] at h
    cases code with
    | some code =>
      cases h
      exact ⟨_, .exited hv⟩
    | none =>
      dsimp only at h
      rcases hc : getClient w.polled with ⟨e | id, w₁⟩
      · rw [hc] at h
        cases e with
        | deploy e =>
          cases h
          exact ⟨_, .unreachable hv hc⟩
        | _ => cases h
      · rw [hc] at h
        dsimp only at h
        rw [Client.isServerReady_apply] at h
        rcases hr : Client.execute id Client.stateQuery w₁ with ⟨e | r, w₂⟩
        · rw [hr] at h
          cases e with
          | deploy e =>
            cases h
            exact ⟨_, .unreadable hv hc hr⟩
          | _ => cases h
        · rw [hr] at h
          obtain ⟨hready, rfl⟩ := Prod.mk.inj h
          replace hready := Except.ok.inj hready
          cases hs : r.isSuccessful with
          | false => exact ⟨_, .refused hv hc hr hs⟩
          | true => exact ⟨_, .transitional hv hc hr hs (by simpa [hs] using hready)⟩

/-- A look says no exactly for one of five reasons, of which only the first is about the process. -/
theorem isRunning_false_iff : isRunning w = (.ok false, w') ↔ ∃ d, Denies d w w' :=
  ⟨denies_of_isRunning, fun ⟨_, h⟩ => isRunning_of_denies h⟩

theorem affirms_of_isRunning (h : isRunning w = (.ok true, w')) : ∃ id w₁, Affirms w id w₁ w' := by
  rw [isRunning_apply] at h
  cases hv : w.process.verdict with
  | error e =>
    rw [hv] at h
    cases h
  | ok code =>
    rw [hv] at h
    cases code with
    | some code => cases h
    | none =>
      dsimp only at h
      rcases hc : getClient w.polled with ⟨e | id, w₁⟩
      · rw [hc] at h
        cases e <;> cases h
      · rw [hc] at h
        dsimp only at h
        rw [Client.isServerReady_apply] at h
        rcases hr : Client.execute id Client.stateQuery w₁ with ⟨e | r, w₂⟩
        · rw [hr] at h
          cases e <;> cases h
        · rw [hr] at h
          obtain ⟨hready, rfl⟩ := Prod.mk.inj h
          replace hready := Except.ok.inj hready
          rw [Bool.and_eq_true, Bool.not_eq_true'] at hready
          exact ⟨id, w₁, hv, hc, r, hr, hready.1, hready.2⟩

/-- The process is asked once in a look, and is left alone by the rest of it. -/
theorem process_isRunning (w : World σ) : (isRunning w).2.process = w.process.polled := by
  have hpolled : w.polled.process = w.process.polled := rfl
  rw [isRunning_apply]
  cases w.process.verdict with
  | error e => rfl
  | ok code =>
    cases code with
    | some code => rfl
    | none =>
      dsimp only
      rcases hc : getClient w.polled with ⟨e | id, w₁⟩
      · have hspared := (sparing_getClient.of_eq hc).process.trans hpolled
        cases e with
        | deploy e => exact (sparing_close w₁).process.trans hspared
        | _ => exact hspared
      · have hspared := (sparing_getClient.of_eq hc).process.trans hpolled
        dsimp only
        rw [Client.isServerReady_apply]
        rcases hr : Client.execute id Client.stateQuery w₁ with ⟨e | r, w₂⟩
        · have hread := ((Client.execute_steps id _).sparing.of_eq hr).process.trans hspared
          cases e <;> exact hread
        · exact ((Client.execute_steps id _).sparing.of_eq hr).process.trans hspared

/-- What a look that said no has heard from the process. -/
theorem getLast?_of_denies {d : Denial} (hlaunched : w.process.isLaunched = true) (h : Denies d w w') :
    (∀ code, w'.process.events.getLast? = some (.poll (.exited code)) ↔ d = .exited code) ∧
      ((∀ code, d ≠ .exited code) → w'.process.events.getLast? = some (.poll .running)) := by
  have hprocess : w'.process = w.process.polled := by
    have hlook := process_isRunning w
    rwa [isRunning_of_denies h] at hlook
  have hlast : w'.process.events.getLast? = some (.poll w.process.poll.1) := by
    rw [hprocess, ServerProcess.events_polled hlaunched, List.getLast?_concat]
  rw [hlast]
  -- a process that has exited is believed, and nothing else is asked after that
  by_cases hexited : ∃ code, d = .exited code
  · obtain ⟨code, rfl⟩ := hexited
    cases h with
    | exited h =>
      rw [(ServerProcess.poll_of_exited h).2]
      refine ⟨fun code' => ?_, fun hne => absurd rfl (hne code)⟩
      simp
  · have hverdict : w.process.verdict = .ok none := by
      cases h with
      | exited h => exact absurd ⟨_, rfl⟩ hexited
      | unreachable h => exact h
      | unreadable h => exact h
      | refused h => exact h
      | transitional h => exact h
    rw [ServerProcess.poll_of_silent hlaunched hverdict]
    refine ⟨fun code => ?_, fun _ => rfl⟩
    simp only [Option.some.injEq, ProcessEvent.poll.injEq, reduceCtorEq, false_iff]
    exact fun h => hexited ⟨code, h⟩

end Server

end ServerDeploy
