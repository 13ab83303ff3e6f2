import ServerDeploy.Proofs.Deployment.Sequence

/-! Deployments that are reported as missing. The search goes by the pattern wherever one is given, also
an empty one, but a report names the pattern only if it is not empty. A report is therefore true of the
criterion that it names, unless the pattern is empty and the name is among the deployments. -/

namespace ServerDeploy

namespace Pattern

theorem parse_nothing : parse "" = .ok .empty := by with_unfolding_all rfl

theorem fits_empty (s : String) : Pattern.empty.fits s = true ↔ s = "" := by
  unfold fits ends
  cases h : s.toList with
  | nil => simpa using String.toList_eq_nil_iff.1 h
  | cons c cs =>
    have hs : s ≠ "" := by
      rintro rfl
      cases h
    simp [hs]

end Pattern

namespace DeploymentPlan

theorem shownCriterion_empty (name : String) : shownCriterion name (some "") = name := rfl

theorem shownCriterion_pattern (name : String) {p : String} (hp : p ≠ "") :
    shownCriterion name (some p) = p := if_neg (by simpa using hp)

end DeploymentPlan

namespace Deployments

/-- A reported criterion stands for the deployment: as a pattern of its whole name, where that is what
was given, and else as its name. -/
def Meant (name : String) (pattern : Option String) (criterion n : String) : Prop :=
  (pattern = some criterion ∧ ∃ p, Pattern.parse criterion = .ok p ∧ p.fits n = true) ∨
    (pattern ≠ some criterion ∧ criterion = name ∧ n = name)

theorem meant_pattern {name criterion n : String} {p : Pattern} (hp : Pattern.parse criterion = .ok p) :
    Meant name (some criterion) criterion n ↔ p.fits n = true := by
  simp [Meant, hp]

theorem meant_name {name n : String} {pattern : Option String} (h : pattern ≠ some name) :
    Meant name pattern name n ↔ n = name := by
  simp [Meant, h]

theorem criterion_pattern {name : Option String} {s : String} {c : Criterion}
    (h : criterion name (some s) = .ok c) : ∃ p, Pattern.parse s = .ok p ∧ c = .matching p := by
  cases hp : Pattern.parse s with
  | error reason =>
    simp only [criterion, hp] at h
    cases h
  | ok p =>
    simp only [criterion, hp] at h
    cases h
    exact ⟨p, rfl, rfl⟩

theorem criterion_error {name : String} {pattern : Option String} {e : Fault}
    (h : criterion (some name) pattern = .error e) :
    ∃ p reason, e = .configuration (.invalidPattern p reason) := by
  cases pattern with
  | none => cases h
  | some s =>
    cases hp : Pattern.parse s with
    | error reason =>
      simp only [criterion, hp] at h
      cases h
      exact ⟨s, reason, rfl⟩
    | ok p =>
      simp only [criterion, hp] at h
      cases h

/-- What was looked for without success is what is shown, except that an empty pattern is shown as the
name. -/
theorem meant_shown_iff {name : String} {pattern : Option String} {c : Criterion} {listed : List String}
    (hc : criterion (some name) pattern = .ok c) (hnone : ∀ n ∈ listed, c.holds n = false) :
    (∃ n ∈ listed, Meant name pattern (DeploymentPlan.shownCriterion name pattern) n) ↔
      pattern = some "" ∧ name ∈ listed := by
  cases pattern with
  | none =>
    cases hc
    have hunlisted : name ∉ listed := fun hn => by simpa [Criterion.holds] using hnone name hn
    change (∃ n ∈ listed, Meant name none name n) ↔ _
    simp [meant_name, hunlisted]
  | some s =>
    obtain ⟨p, hp, rfl⟩ := criterion_pattern hc
    have hmissed : ∀ n ∈ listed, ¬p.fits n = true := fun n hn => Bool.not_eq_true _ ▸ hnone n hn
    by_cases hs : s = ""
    · subst hs
      obtain rfl : Pattern.empty = p := Except.ok.inj (Pattern.parse_nothing.symm.trans hp)
      rw [DeploymentPlan.shownCriterion_empty]
      by_cases hname : name = ""
      · -- here the name is the pattern, which would have fitted it
        subst hname
        have hunlisted : "" ∉ listed := fun hn => hmissed "" hn ((Pattern.fits_empty "").2 rfl)
        simpa [meant_pattern hp, hunlisted] using hmissed
      · simp [meant_name, Ne.symm hname]
    · rw [DeploymentPlan.shownCriterion_pattern name hs]
      simpa [meant_pattern hp, hs] using hmissed

variable {σ : Type} [Endpoint σ] {client : Nat} {w w₁ : World σ} {name pattern : Option String}
  {listed : List String}

/-- A search is a listing and a choice from it. -/
theorem find_listed {c : Criterion} (hc : criterion name pattern = .ok c)
    (hlisted : names client w = (.ok listed, w₁)) :
    find client name pattern w = (.ok (listed.find? c.holds), w₁) := by
  unfold find
  rw [hc, Run.bind_of_ok (Run.ofExcept_apply _ w), Run.bind_of_ok hlisted]
  rfl

theorem find_refused {e : Fault} (hc : criterion name pattern = .error e) :
    find client name pattern w = (.error e, w) := by
  unfold find
  rw [hc]
  rfl

end Deployments

namespace DeploymentPlan

open Deployments

/-- The report that nothing matches a criterion: an error, or a plan to do nothing. -/
def Missing (criterion : String) (r : Except Fault DeploymentPlan) : Prop :=
  r = .error (.deploy (.deploymentNotFound criterion)) ∨ r = .ok (.nothing (nothingToUndeploy criterion))

theorem nothingToUndeploy_inj {c c' : String} (h : nothingToUndeploy c = nothingToUndeploy c') :
    c = c' := by
  unfold nothingToUndeploy at h
  rw [String.append_left_inj, String.append_right_inj] at h
  exact h

section Settling

variable {σ : Type} [Endpoint σ]

/-- What is decided once the search has found a deployment or none. -/
def settle (client : Nat) (type : DeploymentType) (archive : Archive) (criterion : String)
    (existing : Option String) : Run σ DeploymentPlan :=
  match type, existing with
  | .add, _ | .forceAdd, none => pure (.add archive false)
  | .deploy, _ | .forceDeploy, none => pure (.add archive true)
  | .forceAdd, some n => do
    let enabled ← isEnabled client n
    pure (.replace archive n enabled)
  | .forceDeploy, some n | .redeploy, some n => pure (.replace archive n true)
  | .undeploy, some n | .undeployIgnoreMissing, some n => pure (.remove n)
  | .undeployIgnoreMissing, none => pure (.nothing (nothingToUndeploy criterion))
  | .redeploy, none | .undeploy, none => Run.fail (.deploymentNotFound criterion)

variable {client : Nat} {type : DeploymentType} {archive : Archive} {pattern : Option String}
  {w w₁ : World σ} {existing : Option String} {shown criterion : String}

theorem choose_of_find (hlooks : type.looks = true) (hdomain : (w.clientAt client).isDomain = false)
    (hfind : find client (some archive.deploymentName) pattern w = (.ok existing, w₁)) :
    choose client type archive pattern w =
      settle client type archive (shownCriterion archive.deploymentName pattern) existing w₁ := by
  unfold choose
  rw [Run.bind_of_ok (requireStandalone_standalone hdomain)]
  cases type with
  | add | deploy => cases hlooks
  | forceAdd | forceDeploy | redeploy | undeploy | undeployIgnoreMissing =>
    cases existing with
    | none => exact Run.bind_of_ok hfind
    | some n => exact Run.bind_of_ok hfind

theorem choose_of_find_error {e : Fault} (hlooks : type.looks = true)
    (hdomain : (w.clientAt client).isDomain = false)
    (hfind : find client (some archive.deploymentName) pattern w = (.error e, w₁)) :
    choose client type archive pattern w = (.error e, w₁) := by
  unfold choose
  rw [Run.bind_of_ok (requireStandalone_standalone hdomain)]
  cases type with
  | add | deploy => cases hlooks
  | forceAdd | forceDeploy | redeploy | undeploy | undeployIgnoreMissing =>
    dsimp only
    rw [Run.bind_apply, hfind]

theorem eq_of_missing_settle
    (h : Missing criterion (settle client type archive shown none w).1) : criterion = shown := by
  cases type with
  | add | deploy | forceAdd | forceDeploy => rcases h with h | h <;> cases h
  | redeploy | undeploy =>
    rcases h with h | h
    · cases h
      rfl
    · cases h
  | undeployIgnoreMissing =>
    rcases h with h | h
    · cases h
    · exact (nothingToUndeploy_inj (nothing.inj (Except.ok.inj h))).symm

theorem reading_of_missing_settle {n : String}
    (h : Missing criterion (settle client type archive shown (some n) w).1) : type = .forceAdd ∧
      (isEnabled client n w).1 = .error (.deploy (.deploymentNotFound criterion)) := by
  cases type with
  | add | deploy | forceDeploy | redeploy | undeploy | undeployIgnoreMissing =>
    rcases h with h | h <;> cases h
  | forceAdd =>
    refine ⟨rfl, ?_⟩
    simp only [settle, Run.bind_apply] at h
    rcases hread : isEnabled client n w with ⟨e | enabled, w'⟩
    · rw [hread] at h
      rcases h with h | h
      · cases h
        rfl
      · cases h
    · rw [hread] at h
      rcases h with h | h <;> cases h

def portalListing : Outcome := [("outcome", .str "success"), ("result", .arr [.str "portal.war"])]

def portalFile : Archive := ⟨.ofText "portal.war", none⟩

end Settling

end DeploymentPlan

end ServerDeploy
