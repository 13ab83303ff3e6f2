import ServerDeploy.Proofs.Session.Holding
import ServerDeploy.Server.Control

/-! How work with a local server ends. The process may be interrupted, and looks at the server count
its errors as a plain no; other faults pass, and the connection is ready again in all cases. -/

namespace ServerDeploy

open Connection Fault World Run

variable {σ : Type} {reach : Reach}

section Process

variable {I : World σ → Prop} (hI : Steady I)

include hI

theorem Server.ends_withProcess {α : Type} (f : ServerProcess → α × ServerProcess) :
    Ends reach I (withProcess f : Run σ α) :=
  ⟨fun w hw => hI w _ hw ⟨rfl, rfl, rfl, rfl, rfl, rfl, rfl, fun _ h => h⟩⟩

omit hI in
theorem Server.ends_isLaunched : Ends reach I (isLaunched : Run σ Bool) :=
  ends_get.bind fun _ => ends_pure _

theorem Server.ends_exitCode? : Ends reach I (exitCode? : Run σ (Option Int)) := by
  refine ends_isLaunched.bind fun launched => ?_
  split
  · refine (ends_withProcess hI _).bind fun answer => ?_
    split
    · exact ends_pure _
    · exact ends_pure _
    · exact ends_throw trivial
  · exact ends_pure _

omit hI in
theorem ServerConfig.ends_validate (c : ServerConfig) : Ends reach I (c.validate : Run σ Unit) := by
  refine (ends_isDirectory _).bind fun found => ends_guard trivial ?_
  refine (ends_isDirectory _).bind fun found => ?_
  split
  · exact ends_throw trivial
  · exact ends_pure _

omit hI in
theorem ServerConfig.ends_launchCommand (c : ServerConfig) :
    Ends reach I (c.launchCommand : Run σ (List String)) := by
  refine (ends_pathExists _).bind fun found => ends_guard trivial ?_
  exact ends_get.bind fun _ => ends_pure _

theorem Server.ends_start (c : ServerConfig) : Ends reach I (start c : Run σ Unit) := by
  have alive : Ends reach I (isAlive : Run σ Bool) := by
    refine ends_isLaunched.bind fun launched => ?_
    split
    · exact (ends_exitCode? hI).bind fun _ => ends_pure _
    · exact ends_pure _
  refine alive.bind fun running => ends_guard trivial ?_
  refine (ServerConfig.ends_launchCommand c).bind fun command => ?_
  refine (ends_withProcess hI _).bind fun refusal => ?_
  split
  · exact ends_fail _
  · exact ends_pure _

theorem Server.ends_awaitExit (timeout : Seconds) : Ends reach I (awaitExit timeout : Run σ Unit) := by
  refine (ends_withProcess hI _).bind fun answer => ?_
  split
  · exact ends_pure _
  refine (ends_withProcess hI _).bind fun _ => (ends_withProcess hI _).bind fun answer => ?_
  split
  · exact ends_pure _
  · exact (ends_withProcess hI _).bind fun _ => (ends_withProcess hI _).bind fun _ => ends_pure _

end Process

/-- Faults that are not caught are those that there were. -/
theorem Client.ends_orNo {I : World σ → Prop} {body : Run σ Bool} (h : Ends reach I body) :
    Ends reach I (orNo body) := by
  refine Ends.catch h fun e he => ?_
  split
  · exact ends_pure _
  · exact ends_throw he

variable [Endpoint σ]

theorem Client.ends_isServerReady (w₀ : World σ) (id : Nat) :
    Ends .server (w₀.Serves id) (isServerReady id : Run σ Bool) :=
  ends_orNo ((ends_execute w₀ id _).bind fun _ => ends_pure _)

theorem Client.ends_reload (w₀ : World σ) (id : Nat) (timeout interval : Seconds) :
    Ends .server (w₀.Serves id) (reload id timeout interval : Run σ Unit) := by
  refine (ends_executeRequired w₀ id _).bind fun _ => ?_
  refine (ends_waitUntil (steady_serves w₀ id) (ends_isServerReady w₀ id) _ _).bind fun holds => ?_
  split
  · exact ends_fail _
  · exact ends_pure _

namespace Server

theorem ends_isRunning : Ends .server Ready (isRunning : Run σ Bool) := by
  refine (ends_exitCode? steady_ready).bind fun code => ?_
  split
  · exact ends_pure _
  -- a client that is given out is held, and none is left of a connection that failed
  refine Leads.bind (Q := fun client w => Ready w ∧ ∀ id, client = some id → Holding id w)
    (Leads.catch (E := In .server) (J := Ready) ?_ fun e he => ?_) fun client => ?_
  · refine Leads.map (Leads.mono leads_getClient (fun id w h => ⟨h.toReady, ?_⟩) fun _ h => h)
    rintro _ ⟨⟩
    exact h
  · split
    · exact ends_close.bind fun _ => leads_pure fun _ hw => ⟨hw, by simp⟩
    · exact leads_throw he
  · cases client with
    | none => exact leads_pure fun _ hw => hw.1
    | some id =>
      have ready := ends_holding fun w₀ : World σ => Client.ends_isServerReady w₀ id
      exact (ready.mono (fun _ _ h => h.toReady) fun _ h => h.toReady).under fun _ hw => hw.2 id rfl

theorem ends_requestShutdown : Ends .server Ready (requestShutdown : Run σ Unit) := by
  refine Leads.catch (E := In .server) (J := Ready) ?_ fun e he => ?_
  · refine Leads.bind ends_isRunning fun running => ?_
    split
    · exact ends_getClient_then fun id => ends_holding fun w₀ =>
        (Client.ends_execute w₀ id _).bind fun _ => ends_pure _
    · exact ends_pure _
  · split
    · exact ends_pure _
    · exact ends_throw he

theorem ends_stop (timeout : Seconds) : Ends .server Ready (stop timeout : Run σ Unit) := by
  refine (Leads.andFinally ends_requestShutdown ends_close).bind fun _ => ?_
  refine ends_isLaunched.bind fun launched => ?_
  split
  · exact ends_awaitExit steady_ready timeout
  · exact ends_pure _

theorem ends_waitForStart (timeout interval : Seconds) :
    Ends .server Ready (waitForStart timeout interval : Run σ Unit) := by
  refine (ends_waitUntil steady_ready ends_isRunning _ _).bind fun holds => ?_
  split
  · refine (ends_exitCode? steady_ready).bind fun code => (ends_stop _).bind fun _ => ?_
    split <;> exact ends_fail _
  · exact ends_pure _

end Server

end ServerDeploy
