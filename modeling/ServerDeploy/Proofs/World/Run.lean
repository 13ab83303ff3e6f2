import ServerDeploy.World.Retry

/-! What the parts of a computation do to a world. A computation goes on after a success and stops at
a fault, and the world is passed on in both cases. -/

namespace ServerDeploy

namespace Run

variable {σ α β : Type}

theorem bind_apply (body : Run σ α) (next : α → Run σ β) (w : World σ) :
    (body >>= next) w = match body w with
      | (.ok v, w) => next v w
      | (.error e, w) => (.error e, w) := by
  change ExceptT.bindCont next (body w).1 (body w).2 = _
  rcases body w with ⟨_ | v, w⟩ <;> rfl

theorem tryCatch_apply (body : Run σ α) (handler : Fault → Run σ α) (w : World σ) :
    (tryCatch body handler : Run σ α) w = match body w with
      | (.ok v, w) => (.ok v, w)
      | (.error e, w) => handler e w := by
  have h : (tryCatch body handler : Run σ α) = ExceptT.tryCatch body handler := rfl
  rw [h]
  unfold ExceptT.tryCatch
  simp only [ExceptT.mk, bind, StateT.bind]
  rcases body w with ⟨_ | v, w⟩
  · rfl
  · rfl

@[simp] theorem pure_apply (v : α) (w : World σ) : (pure v : Run σ α) w = (.ok v, w) := rfl

@[simp] theorem throw_apply (e : Fault) (w : World σ) :
    (throw e : Run σ α) w = (.error e, w) := rfl

@[simp] theorem fail_apply (e : DeployError) (w : World σ) :
    (fail e : Run σ α) w = (.error (.deploy e), w) := rfl

@[simp] theorem ofExcept_apply (r : Except Fault α) (w : World σ) :
    (ofExcept r : Run σ α) w = (r, w) := by
  cases r <;> rfl

@[simp] theorem get_apply (w : World σ) : (get : Run σ (World σ)) w = (.ok w, w) := rfl

@[simp] theorem modify_apply (f : World σ → World σ) (w : World σ) :
    (modify f : Run σ Unit) w = (.ok (), f w) := rfl

@[simp] theorem modifyGet_apply (f : World σ → α × World σ) (w : World σ) :
    (modifyGet f : Run σ α) w = (.ok (f w).1, (f w).2) := rfl

@[simp] theorem outcome_apply (body : Run σ α) (w : World σ) :
    outcome body w = (.ok (body w).1, (body w).2) := rfl

/-- What comes last is done in any case, and its fault is the one that counts. -/
theorem andFinally_apply (body : Run σ α) (after : Run σ Unit) (w : World σ) :
    andFinally body after w =
      ((after (body w).2).1 >>= fun _ => (body w).1, (after (body w).2).2) := by
  unfold andFinally
  rcases body w with ⟨e | v, w₁⟩
  all_goals
    dsimp only
    rcases after w₁ with ⟨e' | _, w₂⟩ <;> rfl

theorem bind_of_ok {body : Run σ α} {next : α → Run σ β} {w w' : World σ} {v : α}
    (h : body w = (.ok v, w')) : (body >>= next) w = next v w' := by
  rw [bind_apply, h]

theorem ok_of_bind {body : Run σ α} {next : α → Run σ β} {w w' : World σ} {v : β}
    (h : (body >>= next) w = (.ok v, w')) :
    ∃ u w₁, body w = (.ok u, w₁) ∧ next u w₁ = (.ok v, w') := by
  rw [bind_apply] at h
  rcases hb : body w with ⟨_ | u, w₁⟩
  · rw [hb] at h
    cases h
  · rw [hb] at h
    exact ⟨u, w₁, rfl, h⟩

theorem ok_of_ofExcept {r : Except Fault α} {w w' : World σ} {v : α}
    (h : (ofExcept r : Run σ α) w = (.ok v, w')) : r = .ok v ∧ w' = w := by
  rw [ofExcept_apply] at h
  obtain ⟨hr, hw⟩ := Prod.mk.inj h
  exact ⟨hr, hw.symm⟩

/-- What ends well, or for good, is not tried again. -/
theorem withRetry_of_lasting (policy : RetryPolicy) {body : Run σ α} {w : World σ}
    (h : ∀ e, (body w).1 = .error e → e.isTransient = false) : withRetry policy body w = body w := by
  unfold withRetry
  cases (policy.attempts - 1).toNat with
  | zero => rfl
  | succ left =>
    rw [retryFrom, tryCatch_apply]
    rcases hb : body w with ⟨e | v, w₁⟩
    · rw [hb] at h
      dsimp only
      rw [if_neg (by simp [h e rfl]), throw_apply]
    · rfl

section Related

/-! Where a computation leads, by a relation between the world before it and the one after. -/

variable {R : World σ → World σ → Prop}

theorem related_bind {body : Run σ α} {next : α → Run σ β}
    (htrans : ∀ {w₁ w₂ w₃}, R w₁ w₂ → R w₂ w₃ → R w₁ w₃) (h : ∀ w, R w (body w).2)
    (hnext : ∀ v w, R w (next v w).2) (w : World σ) : R w ((body >>= next) w).2 := by
  have hw := h w
  rw [bind_apply]
  rcases hb : body w with ⟨e | v, w₁⟩
  · rw [hb] at hw
    exact hw
  · rw [hb] at hw
    exact htrans hw (hnext v w₁)

theorem related_tryCatch {body : Run σ α} {handler : Fault → Run σ α}
    (htrans : ∀ {w₁ w₂ w₃}, R w₁ w₂ → R w₂ w₃ → R w₁ w₃) (h : ∀ w, R w (body w).2)
    (hh : ∀ e w, R w (handler e w).2) (w : World σ) : R w (tryCatch body handler w).2 := by
  have hw := h w
  rw [tryCatch_apply]
  rcases hb : body w with ⟨e | v, w₁⟩
  · rw [hb] at hw
    exact htrans hw (hh e w₁)
  · rw [hb] at hw
    exact hw

/-- Attempts and the waits between them lead where one of each leads. -/
theorem related_retryFrom (policy : RetryPolicy) {body : Run σ α} (hrefl : ∀ w, R w w)
    (htrans : ∀ {w₁ w₂ w₃}, R w₁ w₂ → R w₂ w₃ → R w₁ w₃) (h : ∀ w, R w (body w).2)
    (hsleep : ∀ w milliseconds, R w (w.sleep milliseconds)) (left attempt : Nat) (w : World σ) :
    R w (retryFrom policy body left attempt w).2 := by
  induction left generalizing attempt w with
  | zero => exact h w
  | succ left ih =>
    refine related_tryCatch (R := R) htrans h (fun fault w => ?_) w
    split
    · exact related_bind (R := R) htrans (fun w => hsleep w _) (fun _ => ih (attempt + 1)) w
    · exact hrefl w

theorem related_andFinally {body : Run σ α} {after : Run σ Unit}
    (htrans : ∀ {w₁ w₂ w₃}, R w₁ w₂ → R w₂ w₃ → R w₁ w₃) (h : ∀ w, R w (body w).2)
    (hafter : ∀ w, R w (after w).2) (w : World σ) : R w (andFinally body after w).2 := by
  rw [andFinally_apply]
  exact htrans (h w) (hafter _)

/-- A computation leads from any world to one that is related to it. -/
def Along (R : World σ → World σ → Prop) (body : Run σ α) : Prop := ∀ w : World σ, R w (body w).2

variable {body : Run σ α}

theorem Along.bind {next : α → Run σ β} (h : Along R body)
    (htrans : ∀ {w₁ w₂ w₃}, R w₁ w₂ → R w₂ w₃ → R w₁ w₃) (hnext : ∀ v, Along R (next v)) :
    Along R (body >>= next) := related_bind htrans h hnext

theorem Along.tryCatch {handler : Fault → Run σ α} (h : Along R body)
    (htrans : ∀ {w₁ w₂ w₃}, R w₁ w₂ → R w₂ w₃ → R w₁ w₃) (hh : ∀ e, Along R (handler e)) :
    Along R (tryCatch body handler) := related_tryCatch htrans h hh

end Related

end Run

end ServerDeploy
