import ServerDeploy.Artifact.Repository
import ServerDeploy.Proofs.World.Reading

/-! Getting artifacts. It may download and write files, again and again where the transport fails, but it
says nothing to the endpoint. -/

namespace ServerDeploy

variable {σ : Type}

/-- The endpoint has heard nothing between two worlds. -/
structure World.Unheard (w w' : World σ) : Prop where
  endpoint : w'.endpoint = w.endpoint
  requests : w'.requests = w.requests

theorem World.Unheard.trans {w w₁ w₂ : World σ} (h : w.Unheard w₁) (h' : w₁.Unheard w₂) :
    w.Unheard w₂ := ⟨h'.endpoint.trans h.endpoint, h'.requests.trans h.requests⟩

namespace Run

variable {α β : Type}

def Offline (body : Run σ α) : Prop := ∀ w : World σ, w.Unheard (body w).2

theorem Still.offline {body : Run σ α} (h : Still body) : Offline body := by
  intro w
  rw [h w]
  exact ⟨rfl, rfl⟩

theorem Offline.bind {body : Run σ α} {next : α → Run σ β} (h : Offline body)
    (hnext : ∀ v, Offline (next v)) : Offline (body >>= next) :=
  related_bind .trans h hnext

theorem Offline.tryCatch {body : Run σ α} {handler : Fault → Run σ α} (h : Offline body)
    (hh : ∀ e, Offline (handler e)) : Offline (tryCatch body handler) :=
  related_tryCatch .trans h hh

theorem offline_pure (v : α) : Offline (pure v : Run σ α) := (still_pure v).offline

theorem offline_throw (e : Fault) : Offline (throw e : Run σ α) := (still_throw e).offline

theorem offline_guard {p : Prop} [Decidable p] {e : Fault} {body : Run σ α} (h : Offline body) :
    Offline (if p then (throw e : Run σ PUnit) >>= fun _ => body else body) := by
  split
  · exact (offline_throw e).bind fun _ => h
  · exact h

theorem offline_changeFiles (f : World σ → Except FileFault Files) : Offline (changeFiles f) := by
  intro w
  unfold changeFiles
  rw [bind_of_ok (get_apply w)]
  cases f w
  · exact ⟨rfl, rfl⟩
  · exact ⟨rfl, rfl⟩

theorem offline_removeFile (p : Path) : Offline (removeFile p : Run σ Unit) := by
  refine (still_findEntry p).offline.bind fun e => ?_
  split
  · exact fun _ => ⟨rfl, rfl⟩
  · exact offline_throw _
  · exact offline_pure _
  · exact offline_throw _

theorem offline_saveFetched (f : Fetched) (target : Path) : Offline (saveFetched f target : Run σ Unit) := by
  refine Offline.bind (Offline.tryCatch ?_ fun fault => ?_) fun _ => ?_
  · refine (offline_changeFiles _).bind fun _ => ?_
    split
    · exact offline_throw _
    · exact offline_pure _
  · exact (offline_removeFile _).bind fun _ => offline_throw _
  · exact offline_guard <| (still_readContent _).offline.bind fun content =>
      (offline_changeFiles _).bind fun _ => offline_removeFile _

theorem offline_fetchFrom (left : Nat) (u : Url) : Offline (fetchFrom left u : Run σ Fetched) := by
  have offline_ask (u : Url) : Offline (ask u : Run σ Download) := fun _ => ⟨rfl, rfl⟩
  induction left generalizing u with
  | zero => exact offline_throw _
  | succ left ih =>
    refine (offline_ask u).bind fun download => ?_
    cases download with
    | lost fault => exact offline_throw _
    | broken received fault => exact offline_pure _
    | served status location content =>
      cases location with
      | none => exact offline_pure _
      | some place =>
        dsimp only
        split
        · exact ih _
        · exact offline_pure _

theorem offline_retryFrom (policy : RetryPolicy) {body : Run σ α} (h : Offline body)
    (left attempt : Nat) : Offline (retryFrom policy body left attempt) :=
  related_retryFrom policy (fun _ => ⟨rfl, rfl⟩) .trans h (fun _ _ => ⟨rfl, rfl⟩) left attempt

end Run

namespace Repositories

open Run

theorem offline_downloadOnce (url : String) (target : Path) :
    Offline (downloadOnce url target : Run σ Bool) := by
  refine (offline_fetchFrom _ _).bind fun f => ?_
  split
  · exact offline_pure _
  · split
    · exact offline_throw _
    · exact (offline_changeFiles _).bind fun _ => (offline_saveFetched f target).bind fun _ =>
        offline_pure _

theorem offline_downloadFirst (place : String) (target : Path) (remotes : List String) :
    Offline (downloadFirst place target remotes : Run σ Bool) := by
  induction remotes with
  | nil => exact offline_pure _
  | cons remote rest ih =>
    refine (offline_retryFrom _ (offline_downloadOnce _ target) _ _).bind fun found => ?_
    split
    · exact offline_pure _
    · exact ih

theorem offline_resolve (r : Repositories) (c : Coordinates) :
    Offline (r.resolve c : Run σ Path) := by
  unfold resolve
  split
  · exact offline_throw _
  · exact offline_throw _
  · next place _ _ =>
    refine (still_pathExists _).offline.bind fun found => ?_
    split
    · exact offline_pure _
    split
    · exact offline_throw _
    refine (offline_downloadFirst place _ _).bind fun found => ?_
    split
    · exact offline_pure _
    · exact offline_throw _

theorem offline_resolveArtifact (r : Repositories) (c : Option Coordinates) (file : Option String) :
    Offline (r.resolveArtifact c file : Run σ Path) := by
  unfold resolveArtifact
  split
  · refine (still_pathExists _).offline.bind fun found => ?_
    split
    · exact offline_pure _
    · exact offline_throw _
  · exact offline_resolve r _

end Repositories

end ServerDeploy
