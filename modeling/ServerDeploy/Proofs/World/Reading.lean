import ServerDeploy.Proofs.World.Conversation
import ServerDeploy.Settings.Credentials

/-! Computations that only read. They find out about files and settings, and leave the world as it
is whatever they find. -/

namespace ServerDeploy

variable {σ : Type}

namespace Run

variable {α β : Type}

def Still (body : Run σ α) : Prop := ∀ w : World σ, (body w).2 = w

theorem still_pure (v : α) : Still (pure v : Run σ α) := fun _ => rfl

theorem still_throw (e : Fault) : Still (throw e : Run σ α) := fun _ => rfl

theorem still_get : Still (get : Run σ (World σ)) := fun _ => rfl

theorem still_ofExcept (r : Except Fault α) : Still (ofExcept r : Run σ α) := by
  intro w
  rw [ofExcept_apply]

theorem Still.bind {body : Run σ α} {next : α → Run σ β} (h : Still body)
    (hnext : ∀ v, Still (next v)) : Still (body >>= next) :=
  related_bind (R := fun w w' => w' = w) (fun h h' => h'.trans h) h hnext

theorem still_guard {p : Prop} [Decidable p] {e : Fault} {body : Run σ α} (h : Still body) :
    Still (if p then (throw e : Run σ PUnit) >>= fun _ => body else body) := by
  split
  · exact (still_throw e).bind fun _ => h
  · exact h

theorem Still.along {R : World σ → World σ → Prop} {body : Run σ α} (h : Still body)
    (hrefl : ∀ w, R w w) : Along R body := by
  intro w
  rw [h w]
  exact hrefl w

theorem Still.silent [Endpoint σ] {body : Run σ α} (h : Still body) : Silent body := by
  intro w
  rw [h w]
  exact .refl w

theorem still_findEntry (p : Path) : Still (findEntry p : Run σ _) :=
  still_get.bind fun _ => still_pure _

theorem still_pathExists (p : Path) : Still (pathExists p : Run σ Bool) := by
  refine (still_findEntry p).bind fun e => ?_
  cases e
  · exact still_pure _
  · exact still_pure _

theorem still_isDirectory (p : Path) : Still (isDirectory p : Run σ Bool) := by
  refine (still_findEntry p).bind fun e => ?_
  rcases e with e | ⟨place, _ | content⟩ <;> exact still_pure _

theorem still_readContent (p : Path) : Still (readContent p : Run σ Content) := by
  refine (still_findEntry p).bind fun e => ?_
  rcases e with e | ⟨place, _ | content⟩
  · exact still_throw _
  · exact still_throw _
  · exact still_pure _

theorem still_readText (p : Path) : Still (readText p : Run σ String) := by
  refine (still_readContent p).bind fun content => ?_
  cases content
  · exact still_pure _
  · exact still_throw _

theorem startOf_congr {w w' : World σ} (hdirectory : w'.directory = w.directory) (p : Path) :
    startOf w' p = startOf w p := by
  unfold startOf
  rw [hdirectory]

theorem readContent_of_files {w w' : World σ} (hfiles : w'.files = w.files)
    (hdirectory : w'.directory = w.directory) (p : Path) :
    (readContent p w').1 = (readContent p w).1 := by
  have hstart := startOf_congr hdirectory p
  unfold readContent findEntry
  rw [bind_apply, bind_apply, get_apply, bind_apply, bind_apply, get_apply]
  dsimp only
  rw [pure_apply, pure_apply, hfiles, hstart]
  rcases w.files.find (startOf w p) p.parts with e | ⟨place, _ | content⟩ <;> rfl

end Run

namespace CredentialStore

theorem still_firstExisting (ps : List Path) :
    Run.Still (firstExisting ps : Run σ (Option Path)) := by
  induction ps with
  | nil => exact Run.still_pure _
  | cons p ps ih =>
    refine (Run.still_pathExists p).bind fun found => ?_
    cases found
    · exact ih
    · exact Run.still_pure _

theorem still_load (path : String) : Run.Still (load path : Run σ Entries) := by
  unfold load
  refine (Run.still_pathExists _).bind fun found => Run.still_guard ?_
  refine (Run.still_readText _).bind fun text => ?_
  split
  · exact Run.still_throw _
  · exact Run.still_throw _
  · exact Run.still_ofExcept _

theorem still_openAt (path : Option String) : Run.Still (openAt path : Run σ CredentialStore) := by
  unfold openAt
  dsimp only
  split
  case' h_1 => refine (Run.still_pure _).bind fun path => ?_
  case' h_2 =>
    refine Run.still_get.bind fun w => (still_firstExisting _).bind fun found => ?_
    refine (Run.still_pure _).bind fun path => ?_
  all_goals
    cases path
    · exact Run.still_pure _
    · exact (still_load _).bind fun _ => Run.still_pure _

end CredentialStore

end ServerDeploy
