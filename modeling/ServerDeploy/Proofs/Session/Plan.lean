import ServerDeploy.Proofs.Session.Call

/-! Planned calls. A computation that stops at the first call that fails makes some of the calls it
has planned, in order, and all of them when it ends well. -/

namespace ServerDeploy

open ClientCall

theorem mem_dropLast_append {α : Type} {x : α} {xs ys : List α} (h : x ∈ (xs ++ ys).dropLast) :
    x ∈ xs ∨ x ∈ ys.dropLast := by
  cases ys with
  | nil =>
    rw [List.append_nil] at h
    exact .inl (List.dropLast_subset xs h)
  | cons y ys =>
    rw [List.dropLast_append_of_ne_nil (by simp)] at h
    exact List.mem_append.1 h

/-- The first calls of a plan, one made after the success of the other, and with a result all. -/
structure Performs {α : Type} (plan : List Call) (r : Except Fault α) (calls : List ClientCall) :
    Prop where
  begun : calls.map (·.call) <+: plan
  successes : ∀ c ∈ calls.dropLast, c.Succeeded
  done : ∀ v, r = .ok v → calls.map (·.call) = plan ∧ ∀ c ∈ calls, c.Succeeded

namespace Performs

variable {α β : Type}

theorem nothing_of_error (plan : List Call) (e : Fault) :
    Performs plan (.error e : Except Fault α) [] := ⟨by simp, by simp, by simp⟩

theorem nothing (r : Except Fault α) : Performs [] r [] := ⟨by simp, by simp, by simp⟩

theorem single {c : ClientCall} {call : Call} (hcall : c.call = call) {r : Except Fault α}
    (h : ∀ v, r = .ok v → c.Succeeded) : Performs [call] r [c] :=
  ⟨by simp [hcall], by simp, fun v hv => ⟨by simp [hcall], by simpa using h v hv⟩⟩

theorem one_or_none {call : Call} {r : Except Fault α} {calls : List ClientCall}
    (h : Performs [call] r calls) : calls = [] ∨ ∃ c, calls = [c] ∧ c.call = call := by
  have hbegun := h.begun
  rcases calls with _ | ⟨c, _ | ⟨d, rest⟩⟩
  · exact .inl rfl
  · exact .inr ⟨c, rfl, by simpa using hbegun⟩
  · exact absurd hbegun.length_le (by simp)

theorem error_append {p : List Call} {e : Fault} {calls : List ClientCall}
    (h : Performs p (.error e : Except Fault α) calls) (q : List Call) :
    Performs (p ++ q) (.error e : Except Fault β) calls :=
  ⟨h.begun.trans (List.prefix_append p q), h.successes, by simp⟩

theorem append {p q : List Call} {v : α} {r : Except Fault β} {xs ys : List ClientCall}
    (h : Performs p (.ok v) xs) (h' : Performs q r ys) : Performs (p ++ q) r (xs ++ ys) := by
  obtain ⟨hxs, hall⟩ := h.done v rfl
  refine ⟨?_, fun c hc => ?_, fun u hu => ?_⟩
  · rw [List.map_append, hxs]
    exact (List.prefix_append_right_inj p).2 h'.begun
  · rcases mem_dropLast_append hc with hc | hc
    · exact hall c hc
    · exact h'.successes c hc
  · obtain ⟨hys, hall'⟩ := h'.done u hu
    refine ⟨by rw [List.map_append, hxs, hys], fun c hc => ?_⟩
    rcases List.mem_append.1 hc with hc | hc
    · exact hall c hc
    · exact hall' c hc

end Performs

namespace Run

variable {σ α β : Type} [Endpoint σ]

theorem performs_bind {body : Run σ α} {next : α → Run σ β} {p q : List Call}
    (h : Speaks body (Performs p)) (hnext : ∀ v, Speaks (next v) (Performs q)) :
    Speaks (body >>= next) (Performs (p ++ q)) :=
  h.bind (fun v _ hv => (hnext v).weaken fun _ _ hr => hv.append hr)
    fun _ _ he => he.error_append q

theorem performs_then {body : Run σ α} {next : α → Run σ β} {p : List Call}
    (h : Speaks body (Performs p)) (hnext : ∀ v, Speaks (next v) (Performs [])) :
    Speaks (body >>= next) (Performs p) := by
  have hall := performs_bind h hnext
  rwa [List.append_nil] at hall

theorem performs_pure (v : α) : Speaks (pure v : Run σ α) (Performs []) :=
  speaks_pure (.nothing _)

theorem performs_ofExcept (r : Except Fault α) : Speaks (ofExcept r : Run σ α) (Performs []) :=
  speaks_ofExcept (.nothing r)

theorem performs_of_value {r : Except Fault α} {next : α → Run σ β} {plan : List Call}
    (h : ∀ v, r = .ok v → Speaks (next v) (Performs plan)) :
    Speaks (ofExcept r >>= next) (Performs plan) :=
  speaks_of_value (.nothing_of_error plan) h

theorem performs_fail (plan : List Call) (e : DeployError) :
    Speaks (fail e : Run σ α) (Performs plan) := speaks_throw (.nothing_of_error plan _)

theorem performs_executeRequired (client : Nat) (op : Json) :
    Speaks (Client.executeRequired client op : Run σ Outcome) (Performs [.operation op]) := by
  refine (Client.executeRequired_calls client op).weaken fun r calls h => ?_
  rcases h with ⟨rfl, hr⟩ | ⟨c, rfl, hcall, hr⟩
  · exact ⟨by simp, by simp, fun v hv => absurd hv (hr v)⟩
  · refine .single hcall fun v hv => ?_
    obtain ⟨o, ho, -, hs⟩ := hr v hv
    exact ⟨o, ho, hs⟩

end Run

end ServerDeploy
