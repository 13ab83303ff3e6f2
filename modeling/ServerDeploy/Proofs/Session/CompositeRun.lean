import ServerDeploy.Proofs.Json.Members
import ServerDeploy.Proofs.Session.ManagementServer

/-! Which composites a server accepts. A composite succeeds exactly when its operations can be applied
one after the other, and a refused one changes nothing. -/

namespace ServerDeploy

open Outcome

theorem Outcome.isSuccessful_iff {r : Outcome} :
    r.isSuccessful = true ↔ r.get? outcomeKey = some (.str "success") := by
  unfold isSuccessful
  cases r.get? outcomeKey with
  | none => simp
  | some v =>
    have hv : ((some v).getD .null).isText "success" = true ↔ some v = some (.str "success") :=
      Json.isText_member
    exact hv

namespace ManagementServer

variable {σ : Type} [ManagementServer σ] {s s' : σ} {ops : List Operation}

theorem Applied.unique {t : σ} (h : Applied s ops s') (h' : Applied s ops t) : s' = t := by
  induction h with
  | nil s =>
    cases h'
    rfl
  | cons hop hs _ ih =>
    cases h' with
    | cons _ hs' hrest =>
      rw [hs] at hs'
      exact ih (hs' ▸ hrest)

theorem stepOf_success {op : Operation} (h : (step s op).1.isSuccessful = true) :
    (stepOf s (.obj op)).1.isSuccessful = true ∧ (stepOf s (.obj op)).2 = (step s op).2 := by
  have happend := Members.get?_append_of_some (isSuccessful_iff.1 h) (headers s op)
  unfold stepOf
  dsimp only
  rw [if_pos h]
  exact ⟨isSuccessful_iff.2 happend, rfl⟩

theorem runSteps_of_applied (h : Applied s ops s') (number : Nat) :
    ∃ results, runSteps s number (ops.map .obj) = (results, s', none) := by
  induction h generalizing number with
  | nil s => exact ⟨[], rfl⟩
  | @cons s₀ s₁ t op rest hop hs _ ih =>
    obtain ⟨hsuccess, hstate⟩ := stepOf_success hop
    obtain ⟨results, hrest⟩ := ih (number + 1)
    rw [List.map_cons, runSteps]
    dsimp only
    rw [if_pos hsuccess, hstate, hs, hrest]
    exact ⟨_, rfl⟩

theorem composite_isSuccessful_iff :
    (composite s (ops.map .obj)).1.isSuccessful = true ↔ ∃ s', Applied s ops s' := by
  constructor
  · intro h
    exact ⟨_, applied_of_composite rfl h⟩
  · rintro ⟨s', happlied⟩
    obtain ⟨results, hrun⟩ := runSteps_of_applied happlied 1
    unfold composite
    rw [hrun]
    rfl

/-- Operations that are applied one after the other stop at one that fails. -/
def FailsAt (s : σ) (ops : List Operation) (op : Operation) : Prop :=
  ∃ pre post t, ops = pre ++ op :: post ∧ Applied s pre t ∧ (step t op).1.isSuccessful = false

theorem FailsAt.not_applied {op : Operation} (h : FailsAt s ops op) : ¬∃ s', Applied s ops s' := by
  obtain ⟨pre, post, t, rfl, hpre, hfails⟩ := h
  rintro ⟨s', happlied⟩
  obtain ⟨t', hpre', hrest⟩ := happlied.split
  obtain rfl := hpre.unique hpre'
  cases hrest with
  | cons hsuccess => exact absurd (hsuccess.symm.trans hfails) nofun

theorem FailsAt.after {xs : List Operation} {op : Operation} (h : FailsAt s' ops op)
    (hxs : Applied s xs s') : FailsAt s (xs ++ ops) op := by
  obtain ⟨pre, post, t, rfl, hpre, hfails⟩ := h
  exact ⟨xs ++ pre, post, t, by simp, hxs.append hpre, hfails⟩

theorem composite_refused {steps : List Json} (h : (composite s steps).1.isSuccessful = false) :
    (composite s steps).2 = s := by
  unfold composite at h ⊢
  rcases hrun : runSteps s 1 steps with ⟨results, final, _ | ⟨key, description⟩⟩
  · rw [hrun] at h
    cases h
  · rfl

theorem composite_outcome_isSome (s : σ) (steps : List Json) :
    ((composite s steps).1.get? outcomeKey).isSome = true := by
  unfold composite
  rcases runSteps s 1 steps with ⟨results, final, _ | ⟨key, description⟩⟩ <;> rfl

end ManagementServer

end ServerDeploy
