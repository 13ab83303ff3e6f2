import ServerDeploy.Proofs.World.Run
import ServerDeploy.World.Retry

/-! The attempts that a retry consists of. Another one is made after each transient failure as long as
the policy allows for it, a wait later, and what the last one comes to is what is seen. -/

namespace ServerDeploy

variable {σ α : Type}

/-- One attempt at a computation, with the worlds before and after it. -/
structure Attempt (σ α : Type) where
  start : World σ
  result : Except Fault α
  finish : World σ

namespace Attempt

def of (body : Run σ α) (w : World σ) : Attempt σ α := ⟨w, (body w).1, (body w).2⟩

/-- The attempt failed, and that is worth another one. -/
def Missed (a : Attempt σ α) : Prop := ∃ e, a.result = .error e ∧ e.isTransient = true

end Attempt

/-- The attempts at a computation from a world on: those that missed, and the last. At most `left` more
are made after the first of them, which has the number `k`. -/
inductive Tries (policy : RetryPolicy) (body : Run σ α) :
    Nat → Nat → World σ → List (Attempt σ α) → Attempt σ α → Prop
  | last {left k : Nat} {w : World σ} (h : left = 0 ∨ ¬(Attempt.of body w).Missed) :
      Tries policy body left k w [] (.of body w)
  | again {left k : Nat} {w : World σ} {rest : List (Attempt σ α)} {final : Attempt σ α}
      (hmissed : (Attempt.of body w).Missed)
      (hrest : Tries policy body left (k + 1) ((body w).2.sleep (policy.wait k)) rest final) :
      Tries policy body (left + 1) k w (.of body w :: rest) final

namespace Run

theorem retryFrom_tries (policy : RetryPolicy) (body : Run σ α) (left k : Nat) (w : World σ) :
    ∃ missed final, Tries policy body left k w missed final ∧
      retryFrom policy body left k w = (final.result, final.finish) := by
  induction left generalizing k w with
  | zero => exact ⟨[], .of body w, .last (.inl rfl), rfl⟩
  | succ left ih =>
    have done (hlasting : ¬(Attempt.of body w).Missed)
        (hsame : retryFrom policy body (left + 1) k w = body w) : ∃ missed final,
        Tries policy body (left + 1) k w missed final ∧
          retryFrom policy body (left + 1) k w = (final.result, final.finish) :=
      ⟨[], .of body w, .last (.inr hlasting), hsame⟩
    rcases hb : body w with ⟨e | v, w₁⟩
    · have hresult : (Attempt.of body w).result = .error e := congrArg Prod.fst hb
      by_cases htransient : e.isTransient = true
      · obtain ⟨missed, final, htries, hlast⟩ := ih (k + 1) ((body w).2.sleep (policy.wait k))
        refine ⟨_ :: missed, final, .again ⟨e, hresult, htransient⟩ htries, ?_⟩
        rw [hb] at hlast
        rw [retryFrom, tryCatch_apply, hb]
        dsimp only
        rw [if_pos htransient, ← hlast]
        rfl
      · refine done ?_ ?_
        · rintro ⟨e', he', ht⟩
          obtain rfl := Except.error.inj (hresult.symm.trans he')
          exact htransient ht
        · rw [retryFrom, tryCatch_apply, hb]
          dsimp only
          rw [if_neg htransient]
          rfl
    · refine done ?_ ?_
      · rintro ⟨e, he, -⟩
        have hresult : (Attempt.of body w).result = .ok v := congrArg Prod.fst hb
        cases hresult.symm.trans he
      · rw [retryFrom, tryCatch_apply, hb]

end Run

namespace Tries

variable {policy : RetryPolicy} {body : Run σ α} {left k : Nat} {w : World σ}
  {missed : List (Attempt σ α)} {final : Attempt σ α}

theorem length_le (h : Tries policy body left k w missed final) : missed.length ≤ left := by
  induction h with
  | last => exact Nat.zero_le _
  | again _ _ ih => exact Nat.succ_le_succ ih

theorem all_missed (h : Tries policy body left k w missed final) : ∀ a ∈ missed, a.Missed := by
  induction h with
  | last => simp
  | again hmissed _ ih =>
    intro a ha
    rcases List.mem_cons.1 ha with rfl | ha
    · exact hmissed
    · exact ih a ha

theorem final_missed (h : Tries policy body left k w missed final) (hfinal : final.Missed) :
    missed.length = left := by
  induction h with
  | last h => exact (h.resolve_right fun hlasting => hlasting hfinal).symm
  | again _ _ ih => exact congrArg (· + 1) (ih hfinal)

/-- An attempt is followed by another one exactly when it missed and more are allowed for. -/
theorem again_iff (h : Tries policy body left k w missed final) {i : Nat} {a : Attempt σ α}
    (ha : (missed ++ [final])[i]? = some a) :
    i + 1 < (missed ++ [final]).length ↔ a.Missed ∧ i < left := by
  have hle := h.length_le
  rw [List.length_append, List.length_singleton]
  by_cases hi : i < missed.length
  · rw [List.getElem?_append_left hi] at ha
    have hmissed := h.all_missed a (List.mem_of_getElem? ha)
    exact iff_of_true (by omega) ⟨hmissed, by omega⟩
  · obtain ⟨hlength, -⟩ := List.getElem?_eq_some_iff.1 ha
    rw [List.length_append, List.length_singleton] at hlength
    obtain rfl : i = missed.length := by omega
    rw [List.getElem?_concat_length] at ha
    obtain rfl := Option.some.inj ha
    refine iff_of_false (by omega) fun ⟨hmissed, hmore⟩ => ?_
    have hnone := h.final_missed hmissed
    omega

theorem start_of_first (h : Tries policy body left k w missed final) {a : Attempt σ α}
    (ha : (missed ++ [final])[0]? = some a) : a.start = w := by
  cases h with
  | last =>
    obtain rfl := Option.some.inj ha
    rfl
  | again =>
    obtain rfl := Option.some.inj ha
    rfl

/-- An attempt goes on from the one before, after a wait. -/
theorem start_of_next (h : Tries policy body left k w missed final) {i : Nat} {a b : Attempt σ α}
    (ha : (missed ++ [final])[i]? = some a) (hb : (missed ++ [final])[i + 1]? = some b) :
    b.start = a.finish.sleep (policy.wait (k + i)) := by
  induction h generalizing i with
  | last => cases hb
  | again _ hrest ih =>
    cases i with
    | zero =>
      obtain rfl := Option.some.inj ha
      exact hrest.start_of_first hb
    | succ i =>
      rw [ih ha hb, Nat.add_assoc, Nat.add_comm 1]

/-- Where no attempt waits itself, the waits before an attempt are those of the policy. -/
theorem sleeps (h : Tries policy body left k w missed final)
    (hbody : ∀ w, (body w).2.sleeps = w.sleeps) {i : Nat} {a : Attempt σ α}
    (ha : (missed ++ [final])[i]? = some a) :
    a.start.sleeps = w.sleeps ++ (List.range i).map fun j => policy.wait (k + j) := by
  induction h generalizing i with
  | last h =>
    obtain ⟨rfl, rfl⟩ : i = 0 ∧ _ := by simpa [List.getElem?_singleton] using ha
    simp [Attempt.of]
  | @again left k w rest final hmissed hrest ih =>
    cases i with
    | zero =>
      obtain rfl := Option.some.inj ha
      simp [Attempt.of]
    | succ i =>
      rw [ih ha, World.sleep, hbody, List.range_succ_eq_map, List.map_cons, List.map_map,
        List.append_assoc, List.singleton_append]
      simp [Function.comp_def, Nat.add_assoc, Nat.add_comm 1]

end Tries

end ServerDeploy
