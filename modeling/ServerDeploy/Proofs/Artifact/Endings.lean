import ServerDeploy.Proofs.World.Endings
import ServerDeploy.Server.Distribution

/-! How getting artifacts and server homes ends. Downloads may fail as the transport does, also after
all attempts, or be sent on too often; an archive of a distribution may be broken. -/

namespace ServerDeploy

open Fault World

variable {σ : Type} {I : World σ → Prop}

namespace Run

/-- What broke a body off is a fault that a download had in store. -/
def Fetched.Expected (f : Fetched) : Prop := ∀ fault, f.brokenBy = some fault → fault.In .repositories

section Fetching

variable (hI : Steady I) (hP : ∀ w, I w → w.Predictable)

include hI hP

theorem leads_ask (u : Url) : Leads (In .repositories) I (ask u : Run σ Download)
    (fun d w => I w ∧ ∀ fault, d.fault? = some fault → fault.In .repositories) I := by
  refine ⟨fun w hw => ?_⟩
  refine ⟨hI w _ hw ⟨rfl, rfl, rfl, rfl, rfl, rfl, rfl, List.drop_subset 1 _⟩, ?_⟩
  have hdownloads := (hP w hw).downloads
  cases hd : w.downloads with
  | nil => exact nofun
  | cons d rest =>
    rw [hd] at hdownloads
    exact hdownloads d List.mem_cons_self

theorem leads_fetchFrom (left : Nat) (u : Url) :
    Leads (In .repositories) I (fetchFrom left u : Run σ Fetched)
      (fun f w => I w ∧ Fetched.Expected f) I := by
  induction left generalizing u with
  | zero => exact leads_throw (.inl rfl)
  | succ left ih =>
    refine (leads_ask hI hP u).bind fun d => ?_
    cases d with
    | lost fault => exact ⟨fun w hw => ⟨hw.1, hw.2 fault rfl⟩⟩
    | broken received fault =>
      refine leads_pure fun w hw => ⟨hw.1, fun fault' h => ?_⟩
      cases h
      exact hw.2 fault rfl
    | served status location content =>
      have served : Leads (In .repositories) I (pure ⟨status, content, none⟩ : Run σ Fetched)
          (fun f w => I w ∧ Fetched.Expected f) I := leads_pure fun w hw => ⟨hw, nofun⟩
      cases location with
      | none => exact served.under fun _ h => h.1
      | some place =>
        dsimp only
        split
        · exact (ih _).under fun _ h => h.1
        · exact served.under fun _ h => h.1

/-- What is done with the body of a download may count on what broke it off. -/
theorem ends_fetch_then {α : Type} (url : String) {next : Fetched → Run σ α}
    (h : ∀ f, Fetched.Expected f → Ends .repositories I (next f)) :
    Ends .repositories I (fetch url >>= next) :=
  (leads_fetchFrom hI hP _ _).bind fun f => ⟨fun w hw => (h f hw.2).ended w hw.1⟩

end Fetching

variable (hI : Steady I)

include hI

theorem ends_saveFetched {f : Fetched} (hf : Fetched.Expected f) (target : Path) :
    Ends .repositories I (saveFetched f target : Run σ Unit) := by
  unfold saveFetched
  extract_lets part write
  have written : Ends .repositories I write := by
    refine (ends_changeFiles hI _).bind fun _ => ?_
    split
    · next fault hbroken => exact ends_throw (hf fault hbroken)
    · exact ends_pure _
  refine (Ends.catch written fun fault hfault => ?_).bind fun _ => ?_
  · exact (ends_removeFile hI _).bind fun _ => ends_throw hfault
  · exact ends_guard trivial <| (ends_readContent _).bind fun content =>
      (ends_changeFiles hI _).bind fun _ => ends_removeFile hI _

end Run

open Run

section Getting

variable (hI : Steady I) (hP : ∀ w, I w → w.Predictable)

include hI hP

namespace Repositories

theorem ends_downloadFirst (place : String) (target : Path) (remotes : List String) :
    Ends .repositories I (downloadFirst place target remotes : Run σ Bool) := by
  have once (url : String) : Ends .repositories I (downloadOnce url target : Run σ Bool) := by
    refine ends_fetch_then hI hP url fun f hf => ?_
    split
    · exact ends_pure _
    split
    · exact ends_fail _
    · exact (ends_changeFiles hI _).bind fun _ => (ends_saveFetched hI hf target).bind fun _ =>
        ends_pure _
  induction remotes with
  | nil => exact ends_pure _
  | cons remote rest ih =>
    refine (ends_withRetry hI _ (once _)).bind fun found => ?_
    split
    · exact ends_pure _
    · exact ih

theorem ends_resolve (r : Repositories) (c : Coordinates) :
    Ends .repositories I (r.resolve c : Run σ Path) := by
  unfold resolve
  split
  · exact ends_fail _
  · exact ends_throw trivial
  · refine (ends_pathExists _).bind fun found => ?_
    split
    · exact ends_pure _
    split
    · exact ends_fail _
    refine (ends_downloadFirst hI hP _ _ _).bind fun found => ?_
    split
    · exact ends_pure _
    · exact ends_fail _

theorem ends_resolveArtifact (r : Repositories) (c : Option Coordinates) (file : Option String) :
    Ends .repositories I (r.resolveArtifact c file : Run σ Path) := by
  unfold resolveArtifact
  split
  · refine (ends_pathExists _).bind fun found => ?_
    split
    · exact ends_pure _
    · exact ends_fail _
  · exact ends_resolve hI hP r _

end Repositories

omit hP in
theorem Archive.ends_extract (archive target : Path) :
    Ends .distributions I (extract archive target : Run σ Unit) := by
  have unpacked (place : Place) (entries : List (String × String)) :
      Ends .distributions I (unpackEntries place entries : Run σ Unit) := by
    induction entries with
    | nil => exact ends_pure _
    | cons entry rest ih => exact (ends_changeFiles hI _).bind fun _ => ih
  refine ends_get.bind fun w => (ends_readContent _).bind fun content => ?_
  split
  · exact ends_throw rfl
  split
  · exact ends_throw trivial
  · exact unpacked _ _

namespace Distribution

theorem ends_archive (d : Distribution) (r : Repositories) :
    Ends .repositories I (d.archive r : Run σ (Path × Option String)) := by
  have once (url : String) (target : Path) :
      Ends .repositories I (downloadOnce url target : Run σ Path) := by
    refine (ends_pathExists _).bind fun found => ?_
    split
    · exact ends_pure _
    refine (ends_changeFiles hI _).bind fun _ => ends_fetch_then hI hP url fun f hf => ?_
    refine ends_guard trivial ?_
    exact (ends_saveFetched hI hf target).bind fun _ => ends_pure _
  have retried (url : String) (target : Path) :
      Ends .repositories I (download url target : Run σ Path) :=
    ends_withRetry hI .download (once url target)
  unfold archive
  refine ends_guard trivial ?_
  split
  · exact (Repositories.ends_resolve hI hP r _).bind fun _ => ends_pure _
  · next url _ _ =>
    generalize d.buildDirectory.child (Path.ofText (Url.filePath url)).name = target
    exact (retried url target).bind fun _ => ends_pure _
  · exact ends_throw trivial

omit hI hP in
theorem ends_singleDirectory (target : Path) :
    Ends .distributions I (singleDirectory target : Run σ Path) := by
  refine (ends_findEntry _).bind fun found => ?_
  split
  · exact ends_throw trivial
  · exact ends_throw trivial
  · refine ends_get.bind fun w => ?_
    dsimp only
    split
    · exact ends_absolute _
    · exact ends_throw trivial

theorem ends_resolve (d : Distribution) (r : Repositories) :
    Ends .distributions I (d.resolve r : Run σ Path) := by
  unfold resolve
  split
  · exact ends_pure _
  refine ((ends_archive hI hP d r).within fun _ he => he.of_repositories).bind fun p => ?_
  refine (ends_pathExists _).bind fun found => ?_
  extract_lets unpack
  have unpacked (u : Unit) : Ends .distributions I (unpack u) := by
    refine (Archive.ends_extract hI _ _).bind fun _ => ?_
    split
    · exact (ends_absolute _).bind fun _ => ends_pure _
    · exact ends_singleDirectory _
  split
  · exact (ends_removeTree hI _).bind unpacked
  · exact unpacked ()

end Distribution

end Getting

end ServerDeploy
