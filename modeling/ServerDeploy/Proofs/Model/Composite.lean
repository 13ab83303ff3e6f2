import ServerDeploy.Model.Composite

/-! Composites as they grow. Steps that are accepted come last, in order and as they are. -/

namespace ServerDeploy

namespace Composite

theorem eq_of_addStep {c d : Composite} {op : Json} (h : c.addStep op = .ok d) :
    d = ⟨c.rollbackOnFailure, c.steps ++ [op]⟩ := by
  unfold addStep at h
  split at h
  · split at h
    · split at h
      · cases h
        rfl
      · cases h
    · cases h
  · cases h

theorem addStep_obj_iff {c : Composite} {op : Operation} : (∃ d, c.addStep (.obj op) = .ok d) ↔
    ∃ kind : Json, op.get? Operation.nameKey = some kind ∧ kind.isSomething = true := by
  constructor
  · rintro ⟨d, h⟩
    simp only [addStep] at h
    split at h
    · next kind hkind =>
      split at h
      · next hsomething => exact ⟨kind, hkind, hsomething⟩
      · cases h
    · cases h
  · rintro ⟨kind, hkind, hsomething⟩
    have hstep : c.addStep (.obj op) = .ok ⟨c.rollbackOnFailure, c.steps ++ [.obj op]⟩ := by
      simp only [addStep, hkind, hsomething, if_true]
    exact ⟨_, hstep⟩

theorem eq_of_addSteps {ops : List Json} {c d : Composite} (h : c.addSteps ops = .ok d) :
    d = ⟨c.rollbackOnFailure, c.steps ++ ops⟩ := by
  induction ops generalizing c with
  | nil =>
    cases h
    simp
  | cons op ops ih =>
    unfold addSteps at h
    split at h
    · cases h
    · next c' hc' =>
      obtain rfl := eq_of_addStep hc'
      rw [ih h]
      simp

theorem addSteps_of_named {ops : List Operation}
    (h : ∀ op ∈ ops, ∃ kind : Json, op.get? Operation.nameKey = some kind ∧
      kind.isSomething = true) (c : Composite) :
    c.addSteps (ops.map .obj) = .ok ⟨c.rollbackOnFailure, c.steps ++ ops.map .obj⟩ := by
  induction ops generalizing c with
  | nil => simp [addSteps]
  | cons op ops ih =>
    obtain ⟨kind, hkind, hsomething⟩ := h op (by simp)
    have hstep : c.addStep (.obj op) = .ok ⟨c.rollbackOnFailure, c.steps ++ [.obj op]⟩ := by
      simp only [addStep, hkind, hsomething, if_true]
    rw [List.map_cons, addSteps, hstep]
    simp [ih fun op hop => h op (by simp [hop])]

end Composite

end ServerDeploy
