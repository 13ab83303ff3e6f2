import ServerDeploy.Proofs.Fault.Kinds
import ServerDeploy.Proofs.World.Reading
import ServerDeploy.World.Web

/-! How computations end: what is true of the world afterwards, and which faults there may be. The
rules follow the ways in which computations are put together; work with files and downloads then ends
well for all that it leaves alone. -/

namespace ServerDeploy

open Fault

variable {σ : Type}

def Download.fault? : Download → Option Fault
  | .lost fault => some fault
  | .broken _ fault => some fault
  | .served _ _ _ => none

namespace World

/-- The faults that lookups, prompts and downloads still hold are such as may come from there. -/
structure Predictable (w : World σ) : Prop where
  lookups : ∀ fault, .lost fault ∈ w.lookups → fault.In .server
  answers : ∀ fault, .error fault ∈ w.terminal.answers → fault.In .server
  downloads : ∀ d ∈ w.downloads, ∀ fault, d.fault? = some fault → fault.In .repositories

/-- What files, downloads and processes leave alone. -/
structure Aside (w w' : World σ) : Prop where
  sessions : w'.sessions = w.sessions
  clients : w'.clients = w.clients
  requests : w'.requests = w.requests
  journal : w'.journal = w.journal
  connection : w'.connection = w.connection
  lookups : w'.lookups = w.lookups
  terminal : w'.terminal = w.terminal
  downloads : w'.downloads ⊆ w.downloads

/-- A property that does not depend on files, downloads and processes. -/
def Steady (I : World σ → Prop) : Prop := ∀ w w', I w → w.Aside w' → I w'

theorem steady_predictable : Steady (Predictable : World σ → Prop) := by
  intro w w' h ha
  refine ⟨?_, ?_, fun d hd => h.downloads d (ha.downloads hd)⟩
  · rw [ha.lookups]
    exact h.lookups
  · rw [ha.terminal]
    exact h.answers

end World

open World

namespace Run

variable {α β : Type} {E E' : Fault → Prop} {reach reach' : Reach} {I J K : World σ → Prop}
  {Q : α → World σ → Prop}

/-- A result comes with a world of which `Q` is true; a fault is one of which `E` is true, and
leaves a world of which `J` is true. -/
def Ended (E : Fault → Prop) (Q : α → World σ → Prop) (J : World σ → Prop) :
    Except Fault α × World σ → Prop
  | (.ok v, w) => Q v w
  | (.error e, w) => J w ∧ E e

/-- From each world of which `I` is true, the computation ends so. -/
structure Leads (E : Fault → Prop) (I : World σ → Prop) (body : Run σ α) (Q : α → World σ → Prop)
    (J : World σ → Prop) : Prop where
  ended : ∀ w, I w → Ended E Q J (body w)

/-- However the computation ends, `I` stays true, and faults are those of the reach. -/
abbrev Ends (reach : Reach) (I : World σ → Prop) (body : Run σ α) : Prop :=
  Leads (In reach) I body (fun _ => I) I

theorem Ended.mono {R : α → World σ → Prop} {ended : Except Fault α × World σ}
    (h : Ended E Q J ended) (hQ : ∀ v w, Q v w → R v w) (hJ : ∀ w, J w → K w)
    (hE : ∀ e, E e → E' e) : Ended E' R K ended := by
  obtain ⟨e | v, w⟩ := ended
  · exact ⟨hJ w h.1, hE e h.2⟩
  · exact hQ v w h

theorem Ended.and {ended : Except Fault α × World σ} (h : Ended E Q J ended) (hK : K ended.2) :
    Ended E (fun v w => Q v w ∧ K w) (fun w => J w ∧ K w) ended := by
  obtain ⟨e | v, w⟩ := ended
  · exact ⟨⟨h.1, hK⟩, h.2⟩
  · exact ⟨h, hK⟩

theorem Leads.mono {R : α → World σ → Prop} {body : Run σ α} (h : Leads E I body Q J)
    (hQ : ∀ v w, Q v w → R v w) (hJ : ∀ w, J w → K w) : Leads E I body R K :=
  ⟨fun w hw => (h.ended w hw).mono hQ hJ fun _ he => he⟩

theorem Leads.under {body : Run σ α} (h : Leads E K body Q J) (hI : ∀ w, I w → K w) :
    Leads E I body Q J := ⟨fun w hw => h.ended w (hI w hw)⟩

theorem Leads.within {body : Run σ α} (h : Leads E I body Q J) (hE : ∀ e, E e → E' e) :
    Leads E' I body Q J :=
  ⟨fun w hw => (h.ended w hw).mono (fun _ _ h => h) (fun _ h => h) hE⟩

theorem leads_pure {v : α} (h : ∀ w, I w → Q v w) : Leads E I (pure v : Run σ α) Q J := ⟨h⟩

theorem leads_throw {e : Fault} (he : E e) : Leads E I (throw e : Run σ α) Q I :=
  ⟨fun _ hw => ⟨hw, he⟩⟩

theorem leads_modify {f : World σ → World σ} (h : ∀ w, I w → J (f w)) :
    Leads E I (modify f : Run σ Unit) (fun _ => J) K := ⟨h⟩

theorem leads_get : Leads E I (get : Run σ (World σ)) (fun _ => I) J := ⟨fun _ hw => hw⟩

theorem leads_ofExcept {r : Except Fault α} (h : Fails E r) :
    Leads E I (ofExcept r : Run σ α) (fun _ => I) I := by
  cases r with
  | error e => exact leads_throw (h e rfl)
  | ok v => exact leads_pure fun _ hw => hw

theorem Leads.bind {R : β → World σ → Prop} {body : Run σ α} {next : α → Run σ β}
    (h : Leads E I body Q J) (hnext : ∀ v, Leads E (Q v) (next v) R J) :
    Leads E I (body >>= next) R J := by
  refine ⟨fun w hw => ?_⟩
  have hended := h.ended w hw
  rw [bind_apply]
  rcases hb : body w with ⟨e | v, w₁⟩
  · rw [hb] at hended
    exact hended
  · rw [hb] at hended
    exact (hnext v).ended w₁ hended

theorem Leads.map {R : β → World σ → Prop} {body : Run σ α} {f : α → β}
    (h : Leads E I body (fun v => R (f v)) J) : Leads E I (f <$> body) R J := by
  rw [← bind_pure_comp]
  exact h.bind fun _ => leads_pure fun _ hw => hw

theorem Ends.map {body : Run σ α} (h : Ends reach I body) (f : α → β) : Ends reach I (f <$> body) :=
  Leads.map h

/-- A handler may turn faults of one kind into those of another. -/
theorem Leads.catch {body : Run σ α} {handler : Fault → Run σ α} (h : Leads E I body Q J)
    (hh : ∀ e, E e → Leads E' J (handler e) Q K) :
    Leads E' I (tryCatch body handler) Q K := by
  refine ⟨fun w hw => ?_⟩
  have hended := h.ended w hw
  rw [tryCatch_apply]
  rcases hb : body w with ⟨e | v, w₁⟩
  · rw [hb] at hended
    exact (hh e hended.2).ended w₁ hended.1
  · rw [hb] at hended
    exact hended

theorem Ends.catch {body : Run σ α} {handler : Fault → Run σ α} (h : Ends reach I body)
    (hh : ∀ e : Fault, e.In reach → Ends reach' I (handler e)) :
    Ends reach' I (tryCatch body handler) := Leads.catch h hh

theorem Leads.andFinally {body : Run σ α} {after : Run σ Unit}
    (h : Leads E I body (fun _ => K) K) (hafter : Leads E K after (fun _ => J) J) :
    Leads E I (andFinally body after) (fun _ => J) J := by
  refine ⟨fun w hw => ?_⟩
  have hended := h.ended w hw
  unfold Run.andFinally
  rcases hb : body w with ⟨e | v, w₁⟩
  · rw [hb] at hended
    have hlast := hafter.ended w₁ hended.1
    dsimp only
    rcases ha : after w₁ with ⟨e' | _, w₂⟩
    · rw [ha] at hlast
      exact hlast
    · rw [ha] at hlast
      exact ⟨hlast, hended.2⟩
  · rw [hb] at hended
    have hlast := hafter.ended w₁ hended
    dsimp only
    rcases ha : after w₁ with ⟨e' | _, w₂⟩
    · rw [ha] at hlast
      exact hlast
    · rw [ha] at hlast
      exact hlast

theorem ends_pure (v : α) : Ends reach I (pure v : Run σ α) := leads_pure fun _ hw => hw

theorem ends_throw {e : Fault} (he : e.In reach) : Ends reach I (throw e : Run σ α) := leads_throw he

theorem ends_fail (e : DeployError) : Ends reach I (fail e : Run σ α) := leads_throw trivial

theorem ends_get : Ends reach I (get : Run σ (World σ)) := leads_get

theorem ends_ofExcept {r : Except Fault α} (h : Plainly r) : Ends reach I (ofExcept r : Run σ α) :=
  leads_ofExcept fun e he => .of_plain (h e he) reach

theorem ends_guard {p : Prop} [Decidable p] {e : Fault} {body : Run σ α} (he : e.In reach)
    (h : Ends reach I body) :
    Ends reach I (if p then (throw e : Run σ PUnit) >>= fun _ => body else body) := by
  split
  · exact (ends_throw he).bind fun _ => h
  · exact h

/-- What holds before every attempt is kept by failed ones and by the waits between them. -/
theorem leads_withRetry (policy : RetryPolicy) {body : Run σ α} (h : Leads E I body Q I)
    (hsleep : ∀ w milliseconds, I w → I (w.sleep milliseconds)) :
    Leads E I (withRetry policy body) Q I := by
  have retried (left attempt : Nat) : Leads E I (retryFrom policy body left attempt) Q I := by
    induction left generalizing attempt with
    | zero => exact h
    | succ left ih =>
      refine Leads.catch h fun e he => ?_
      split
      · exact (leads_modify fun w hw => hsleep w _ hw).bind fun _ => ih (attempt + 1)
      · exact leads_throw he
  exact retried _ _

section Steady

variable (hI : Steady I)

include hI

theorem ends_aside {f : World σ → World σ} (h : ∀ w : World σ, w.Aside (f w)) :
    Ends reach I (modify f : Run σ Unit) := leads_modify fun w hw => hI w _ hw (h w)

theorem ends_sleep (milliseconds : Nat) : Ends reach I (sleep milliseconds : Run σ Unit) :=
  ends_aside hI fun _ => ⟨rfl, rfl, rfl, rfl, rfl, rfl, rfl, fun _ h => h⟩

theorem ends_withRetry (policy : RetryPolicy) {body : Run σ α} (h : Ends reach I body) :
    Ends reach I (withRetry policy body) :=
  leads_withRetry policy h fun w _ hw => hI w _ hw ⟨rfl, rfl, rfl, rfl, rfl, rfl, rfl, fun _ h => h⟩

theorem ends_waitUntil {condition : Run σ Bool} (h : Ends reach I condition)
    (timeout interval : Seconds) : Ends reach I (waitUntil condition timeout interval) := by
  have polled (start checks : Nat) :
      Ends reach I (pollFrom condition timeout interval start checks) := by
    induction checks with
    | zero => exact ends_pure _
    | succ checks ih =>
      refine h.bind fun holds => ?_
      split
      · exact ends_pure _
      refine Leads.bind (ends_get.bind fun _ => ends_pure _) fun elapsed => ?_
      split
      · exact ends_pure _
      · exact (ends_sleep hI _).bind fun _ => ih
  exact ends_get.bind fun w => polled _ _

end Steady

section Files

theorem leads_findEntry (p : Path) : Leads E I (findEntry p : Run σ _) (fun _ => I) J :=
  leads_get.bind fun _ => leads_pure fun _ hw => hw

theorem ends_findEntry (p : Path) : Ends reach I (findEntry p : Run σ _) := leads_findEntry p

theorem ends_pathExists (p : Path) : Ends reach I (pathExists p : Run σ Bool) := by
  refine (ends_findEntry p).bind fun e => ?_
  split <;> exact ends_pure _

theorem ends_isDirectory (p : Path) : Ends reach I (isDirectory p : Run σ Bool) := by
  refine (ends_findEntry p).bind fun e => ?_
  split <;> exact ends_pure _

theorem ends_absolute (p : Path) : Ends reach I (absolute p : Run σ Path) :=
  ends_get.bind fun _ => ends_pure _

theorem ends_readContent (p : Path) : Ends reach I (readContent p : Run σ Content) := by
  refine (ends_findEntry p).bind fun e => ?_
  split
  · exact ends_pure _
  · exact ends_throw trivial
  · exact ends_throw trivial

theorem ends_readText (p : Path) : Ends reach I (readText p : Run σ String) := by
  refine (ends_readContent p).bind fun content => ?_
  split
  · exact ends_pure _
  · exact ends_throw trivial

variable (hI : Steady I)

include hI

theorem leads_changeFiles (hE : ∀ e, E (.system (.file e))) (f : World σ → Except FileFault Files) :
    Leads E I (changeFiles f) (fun _ => I) I := by
  refine ⟨fun w hw => ?_⟩
  unfold changeFiles
  rw [bind_of_ok (get_apply w)]
  cases f w with
  | error e => exact ⟨hw, hE e⟩
  | ok files => exact hI w _ hw ⟨rfl, rfl, rfl, rfl, rfl, rfl, rfl, fun _ h => h⟩

theorem ends_changeFiles (f : World σ → Except FileFault Files) : Ends reach I (changeFiles f) :=
  leads_changeFiles hI (fun _ => trivial) f

theorem ends_removeFile (p : Path) : Ends reach I (removeFile p : Run σ Unit) := by
  refine (ends_findEntry p).bind fun e => ?_
  split
  · exact ends_aside hI fun _ => ⟨rfl, rfl, rfl, rfl, rfl, rfl, rfl, fun _ h => h⟩
  · exact ends_throw trivial
  · exact ends_pure _
  · exact ends_throw trivial

theorem ends_removeTree (p : Path) : Ends reach I (removeTree p : Run σ Unit) := by
  refine (ends_findEntry p).bind fun e => ?_
  split
  · exact ends_aside hI fun _ => ⟨rfl, rfl, rfl, rfl, rfl, rfl, rfl, fun _ h => h⟩
  · exact ends_throw trivial
  · exact ends_throw trivial

end Files

end Run

end ServerDeploy
