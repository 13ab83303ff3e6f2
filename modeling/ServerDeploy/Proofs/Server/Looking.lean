import ServerDeploy.Proofs.Session.Repetition
import ServerDeploy.Server.Control

/-! Waiting for a server and stopping it. Waiting takes looks only, and stopping takes looks and
shutdowns, whatever comes of them. -/

namespace ServerDeploy

open Run ClientCall

variable {σ : Type} [Endpoint σ]

namespace Run

theorem Speaks.andFinally {α : Type} {body : Run σ α} {after : Run σ Unit}
    {Q R : List ClientCall → Prop} {P : ClientCall → Prop} (h : Speaks body fun _ calls => Q calls)
    (h' : OnlyMakes P after) (hR : ∀ calls more, Q calls → (∀ c ∈ more, P c) → R (calls ++ more)) :
    Speaks (andFinally body after) fun _ calls => R calls := by
  intro w
  obtain ⟨calls, hf, hcalls⟩ := h w
  obtain ⟨more, hf', hmore⟩ := h' (body w).2
  rw [andFinally_apply]
  exact ⟨calls ++ more, by simpa using hf.trans hf', hR calls more hcalls hmore⟩

theorem pollFrom_only {P : ClientCall → Prop} {condition : Run σ Bool} (h : OnlyMakes P condition)
    (timeout interval : Seconds) (start checks : Nat) :
    OnlyMakes P (pollFrom condition timeout interval start checks) := by
  have silent_hasElapsed : Silent (hasElapsed start timeout : Run σ Bool) :=
    silent_get.bind fun _ => silent_pure _
  induction checks with
  | zero => exact (silent_pure _).only
  | succ checks ih =>
    refine h.bind fun holds => ?_
    split
    · exact (silent_pure _).only
    refine silent_hasElapsed.only.bind fun elapsed => ?_
    split
    · exact (silent_pure _).only
    · exact (silent_sleep _).only.bind fun _ => ih

theorem waitUntil_only {P : ClientCall → Prop} {condition : Run σ Bool} (h : OnlyMakes P condition)
    (timeout interval : Seconds) : OnlyMakes P (waitUntil condition timeout interval) :=
  silent_get.only.bind fun _ => pollFrom_only h _ _ _ _

end Run

namespace Client

theorem execute_only (client : Nat) (op : Json) :
    OnlyMakes (fun c => c.call = .operation op) (execute client op : Run σ Outcome) :=
  only_of_calls (execute_calls client op)

theorem isServerReady_looks (client : Nat) : OnlyLooks (isServerReady client : Run σ Bool) := by
  refine OnlyMakes.tryCatch ?_ fun fault => ?_
  · exact ((execute_only client _).weaken fun _ => .inr).bind fun _ => (silent_pure _).only
  · cases fault
    case deploy => exact (silent_pure _).only
    all_goals exact (silent_throw _).only

theorem reload_clear (client : Nat) (timeout interval : Seconds) :
    Speaks (reload client timeout interval : Run σ Unit) Clear := by
  refine clear_bind (clear_of_performs (performs_executeRequired client _)) fun _ => ?_
  refine clear_bind (waitUntil_only (isServerReady_looks client) timeout interval).clear fun ready => ?_
  split
  · exact (silent_throw _).clear
  · exact (silent_pure _).clear

end Client

namespace ServerConfig

omit [Endpoint σ]

theorem still_validate (c : ServerConfig) : Still (c.validate : Run σ Unit) := by
  refine (still_isDirectory _).bind fun found => still_guard ?_
  refine (still_isDirectory _).bind fun found => ?_
  split
  · exact still_throw _
  · exact still_pure _

theorem still_launchCommand (c : ServerConfig) : Still (c.launchCommand : Run σ (List String)) := by
  refine (still_pathExists _).bind fun found => still_guard ?_
  exact still_get.bind fun _ => still_pure _

end ServerConfig

namespace Server

theorem silent_withProcess {α : Type} (f : ServerProcess → α × ServerProcess) :
    Silent (withProcess f : Run σ α) := fun _ => .quiet rfl rfl rfl rfl

theorem silent_isLaunched : Silent (isLaunched : Run σ Bool) :=
  silent_get.bind fun _ => silent_pure _

theorem silent_exitCode? : Silent (exitCode? : Run σ (Option Int)) := by
  refine silent_isLaunched.bind fun launched => ?_
  split
  · refine (silent_withProcess _).bind fun answer => ?_
    cases answer with
    | running => exact silent_pure _
    | exited code => exact silent_pure _
    | interrupted => exact silent_throw _
  · exact silent_pure _

theorem silent_awaitExit (timeout : Seconds) : Silent (awaitExit timeout : Run σ Unit) := by
  refine (silent_withProcess _).bind fun answer => ?_
  cases answer with
  | exited code => exact silent_pure _
  | timedOut =>
    refine (silent_withProcess _).bind fun _ => (silent_withProcess _).bind fun answer => ?_
    cases answer with
    | exited code => exact silent_pure _
    | timedOut =>
      exact (silent_withProcess _).bind fun _ => (silent_withProcess _).bind fun _ => silent_pure _

theorem silent_start (c : ServerConfig) : Silent (start c : Run σ Unit) := by
  have silent_isAlive : Silent (isAlive : Run σ Bool) := by
    refine silent_isLaunched.bind fun launched => ?_
    split
    · exact silent_exitCode?.bind fun _ => silent_pure _
    · exact silent_pure _
  refine silent_isAlive.bind fun alive => silent_guard ?_
  refine c.still_launchCommand.silent.bind fun command => (silent_withProcess _).bind fun refusal => ?_
  cases refusal with
  | some reason => exact silent_throw _
  | none => exact silent_pure _

theorem isRunning_looks : OnlyLooks (isRunning : Run σ Bool) := by
  refine silent_exitCode?.only.bind fun code => ?_
  split
  · exact (silent_pure _).only
  refine OnlyMakes.bind (OnlyMakes.tryCatch ?_ fun fault => ?_) fun client => ?_
  · rw [← bind_pure_comp]
    exact Connection.getClient_looks.bind fun _ => (silent_pure _).only
  · cases fault
    case deploy => exact (Connection.silent_close.bind fun _ => silent_pure _).only
    all_goals exact (silent_throw _).only
  · cases client with
    | some client => exact Client.isServerReady_looks client
    | none => exact (silent_pure _).only

theorem requestShutdown_closes : OnlyMakes IsClosing (requestShutdown : Run σ Unit) := by
  have looks {α : Type} {body : Run σ α} (h : OnlyLooks body) : OnlyMakes IsClosing body :=
    h.weaken fun _ => .inl
  refine OnlyMakes.tryCatch ?_ fun fault => ?_
  · refine (looks isRunning_looks).bind fun running => ?_
    split
    · refine (looks Connection.getClient_looks).bind fun client => ?_
      exact ((Client.execute_only client _).weaken fun _ => .inr).bind fun _ => (silent_pure _).only
    · exact (silent_pure _).only
  · cases fault
    case deploy => exact (silent_pure _).only
    all_goals exact (silent_throw _).only

theorem stop_closes (timeout : Seconds) : OnlyMakes IsClosing (stop timeout : Run σ Unit) := by
  have requested : OnlyMakes IsClosing (andFinally requestShutdown Connection.close : Run σ Unit) :=
    Speaks.andFinally requestShutdown_closes Connection.silent_close.only fun _ _ h h' c hc =>
      (List.mem_append.mp hc).elim (h c) (h' c)
  refine requested.bind fun _ => silent_isLaunched.only.bind fun launched => ?_
  split
  · exact (silent_awaitExit timeout).only
  · exact (silent_pure _).only

theorem waitForStart_clear (timeout interval : Seconds) :
    Speaks (waitForStart timeout interval : Run σ Unit) Clear := by
  have failed (e : DeployError) : Speaks (do
      stop defaultStopTimeout
      Run.fail e : Run σ Unit) Clear := by
    refine Speaks.bind (stop_closes defaultStopTimeout) (fun _ calls hcalls => ?_)
      fun e calls hcalls => ⟨unrepeated_of_closing hcalls, nofun⟩
    exact speaks_throw ⟨by simpa using unrepeated_of_closing hcalls, nofun⟩
  unfold waitForStart
  refine clear_bind (waitUntil_only isRunning_looks timeout interval).clear fun running => ?_
  split
  · refine clear_bind silent_exitCode?.clear fun code => ?_
    cases code with
    | some code => exact failed _
    | none => exact failed _
  · exact (silent_pure _).clear

end Server

end ServerDeploy
