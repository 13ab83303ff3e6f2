import ServerDeploy.Proofs.Artifact.Depositing

/-! Searching repositories for an artifact. They are asked in order for as long as they do not have it; the
first other answer settles the search, be it the artifact or a refusal. -/

namespace ServerDeploy

open Run

variable {σ : Type} {w w' : World σ} {target : Path} {url place remote : String}
  {status : Nat} {location : Option String} {content : Content}

/-- The answer that a number of others come before. When there are no more, nothing is found. -/
def World.answer (w : World σ) (n : Nat) : Download := w.downloads.getD n noDownload

/-- The repository does not have what was asked for. -/
def Download.IsMissing (d : Download) : Prop := ∃ location content, d = .served 404 location content

/-- The address at which an artifact is looked for, as it is asked for. -/
def Repositories.address (place remote : String) : String :=
  (Url.ofText (remote ++ "/" ++ place)).normal.text

/-- A world in which some addresses were asked, each with one answer. -/
def World.asking (w : World σ) (urls : List String) : World σ :=
  { w with urls := w.urls ++ urls, downloads := w.downloads.drop urls.length }

theorem World.asking_asking (w : World σ) (urls urls' : List String) :
    (w.asking urls).asking urls' = w.asking (urls ++ urls') := by
  simp [World.asking, List.drop_drop]

theorem World.answer_asking (w : World σ) (urls : List String) (n : Nat) :
    (w.asking urls).answer n = w.answer (urls.length + n) := by
  simp [World.answer, World.asking, List.getD_eq_getElem?_getD]

namespace Run

theorem fetch_apply (url : String) (hanswer : w.answer 0 = .served status location content)
    (hplain : isRedirect status = false) : (fetch url : Run σ Fetched) w =
      (.ok ⟨status, content, none⟩, w.asking [(Url.ofText url).normal.text]) := by
  have hasked : (ask (Url.ofText url).normal : Run σ Download) w =
      (.ok (.served status location content), w.asking [(Url.ofText url).normal.text]) := by
    have hhead : w.downloads.headD noDownload = w.answer 0 := by
      unfold World.answer
      cases w.downloads <;> rfl
    unfold ask
    rw [modifyGet_apply, hhead, hanswer]
    rfl
  unfold fetch fetchFrom
  rw [bind_of_ok hasked]
  cases location with
  | none => rfl
  | some next =>
    dsimp only
    rw [if_neg (by simp [hplain])]
    rfl

end Run

theorem isRedirect_of_error (h : 400 ≤ status) : isRedirect status = false := by
  unfold isRedirect
  simp
  omega

namespace Repositories

theorem downloadOnce_missing (url : String) (target : Path) (hanswer : (w.answer 0).IsMissing) :
    downloadOnce url target w = (.ok false, w.asking [(Url.ofText url).normal.text]) := by
  obtain ⟨location, content, hserved⟩ := hanswer
  unfold downloadOnce
  rw [bind_of_ok (fetch_apply url hserved rfl)]
  rfl

theorem downloadOnce_refused (url : String) (target : Path)
    (hanswer : w.answer 0 = .served status location content) (herror : 400 ≤ status)
    (hother : status ≠ 404) : downloadOnce url target w =
      (.error (.deploy (.artifact (.refused url status))),
        w.asking [(Url.ofText url).normal.text]) := by
  unfold downloadOnce
  rw [bind_of_ok (fetch_apply url hanswer (isRedirect_of_error herror))]
  dsimp only
  rw [if_neg (by simpa using hother), if_pos herror, fail_apply]

/-- What is done with the body of an artifact. -/
def keep (f : Fetched) (target : Path) : Run σ Bool := do
  makeDirectories target.parent
  saveFetched f target
  pure true

theorem downloadOnce_served (url : String) (target : Path)
    (hanswer : w.answer 0 = .served 200 location content) : downloadOnce url target w =
      keep ⟨200, content, none⟩ target (w.asking [(Url.ofText url).normal.text]) := by
  unfold downloadOnce
  rw [bind_of_ok (fetch_apply url hanswer rfl)]
  rfl

theorem downloadFirst_cons (place : String) (target : Path) (remote : String) (rest : List String)
    (hlasting : ∀ e, (downloadOnce (remote ++ "/" ++ place) target w).1 = .error e → e.isTransient = false) :
    downloadFirst place target (remote :: rest) w =
      match downloadOnce (remote ++ "/" ++ place) target w with
      | (.ok true, w') => (.ok true, w')
      | (.ok false, w') => downloadFirst place target rest w'
      | (.error e, w') => (.error e, w') := by
  rw [downloadFirst, bind_apply, withRetry_of_lasting _ hlasting]
  rcases downloadOnce (remote ++ "/" ++ place) target w with ⟨e | found, w₁⟩
  · rfl
  · cases found <;> rfl

/-- Repositories that do not have the artifact are passed over. -/
theorem downloadFirst_append (place : String) (target : Path) (before rest : List String)
    (hmissing : ∀ n < before.length, (w.answer n).IsMissing) :
    downloadFirst place target (before ++ rest) w =
      downloadFirst place target rest (w.asking (before.map (address place))) := by
  induction before generalizing w with
  | nil => simp [World.asking]
  | cons remote before ih =>
    -- a missing artifact is an answer and no fault, so it is not asked for again
    have hfirst := downloadOnce_missing (remote ++ "/" ++ place) target (hmissing 0 (Nat.succ_pos _))
    have hlasting (e : Fault) (he : (downloadOnce (remote ++ "/" ++ place) target w).1 = .error e) :
        e.isTransient = false := by
      rw [hfirst] at he
      cases he
    rw [List.cons_append, downloadFirst_cons _ _ _ _ hlasting, hfirst]
    dsimp only
    rw [ih fun n hn => ?_, World.asking_asking]
    · rfl
    · rw [World.answer_asking]
      have hnext := hmissing (n + 1) (Nat.succ_lt_succ hn)
      rwa [Nat.add_comm] at hnext

end Repositories

/-- A fault of the file system. -/
def Fault.OfFiles (e : Fault) : Prop := e = .system .other ∨ ∃ problem, e = .system (.file problem)

theorem Fault.OfFiles.lasting {e : Fault} (h : e.OfFiles) : e.isTransient = false := by
  rcases h with rfl | ⟨problem, rfl⟩ <;> rfl

namespace Run

section Files

/-- A computation on files fails as the file system does, and keeps what files have no part in. -/
abbrev WorksOnFiles {α : Type} (I : World σ → Prop) (body : Run σ α) : Prop :=
  Leads Fault.OfFiles I body (fun _ => I) I

variable {I : World σ → Prop} (hI : ∀ w files, I w → I { w with files := files })

include hI

theorem worksOnFiles_changeFiles (change : World σ → Except FileFault Files) :
    WorksOnFiles I (changeFiles change) := by
  refine ⟨fun w hw => ?_⟩
  rw [changeFiles_apply]
  cases change w with
  | error problem => exact ⟨hw, .inr ⟨problem, rfl⟩⟩
  | ok files => exact hI w files hw

theorem worksOnFiles_removeFile (p : Path) : WorksOnFiles I (removeFile p : Run σ Unit) := by
  refine (leads_findEntry p).bind fun found => ?_
  split
  · exact leads_modify fun w hw => hI w _ hw
  · exact leads_throw (.inr ⟨_, rfl⟩)
  · exact leads_pure fun _ hw => hw
  · exact leads_throw (.inr ⟨_, rfl⟩)

theorem worksOnFiles_saveFetched {f : Fetched} (hf : f.brokenBy = none) (target : Path) :
    WorksOnFiles I (saveFetched f target : Run σ Unit) := by
  have read (p : Path) : WorksOnFiles I (readContent p : Run σ Content) := by
    refine (leads_findEntry p).bind fun found => ?_
    split
    · exact leads_pure fun _ hw => hw
    · exact leads_throw (.inr ⟨_, rfl⟩)
    · exact leads_throw (.inr ⟨_, rfl⟩)
  unfold saveFetched
  extract_lets part write
  have written : WorksOnFiles I write := by
    refine (worksOnFiles_changeFiles hI _).bind fun _ => ?_
    rw [hf]
    exact leads_pure fun _ hw => hw
  refine (Leads.catch written fun fault hfault => ?_).bind fun _ => ?_
  · exact (worksOnFiles_removeFile hI _).bind fun _ => leads_throw hfault
  · unfold renameFile
    split
    · exact ⟨fun w hw => ⟨hw, .inl rfl⟩⟩
    · exact (read _).bind fun content =>
        (worksOnFiles_changeFiles hI _).bind fun _ => worksOnFiles_removeFile hI _

end Files

end Run

/-- The file system takes a new file: the path leads down, from a directory and past no file, and no
directory is at its end or where the file is kept until it is complete. -/
structure World.Receives (w : World σ) (target : Path) : Prop where
  named : target.parts ≠ []
  straight : ".." ∉ target.parts
  start : w.files.entry? (startOf w target) = some .directory
  way : ∀ q content, Files.OnWay (startOf w target) (startOf w target ++ target.parts.dropLast) q →
    w.files.entry? q ≠ some (.file content)
  unfinished : w.files.entry? (startOf w target ++ target.unfinished.parts) ≠ some .directory
  finished : w.files.entry? (startOf w target ++ target.parts) ≠ some .directory

theorem World.Receives.admits (h : w.Receives target) : ∃ made,
    w.files.makeDirectories (startOf w target) target.parent.parts = .ok made ∧
      ({ w with files := made } : World σ).Admits target (startOf w target ++ target.parts.dropLast) := by
  obtain ⟨habove, hname⟩ := Path.straight_parts h.named h.straight
  have hparts := Path.parts_eq h.named
  obtain ⟨made, hmade⟩ := Files.makeDirectories_ok habove h.way
  have hentry := Files.entry?_makeDirectories habove hmade
  have hdirectory (q : Place) (hfirst : startOf w target <+: q)
      (hq : q <+: startOf w target ++ target.parts.dropLast) : made.entry? q = some .directory := by
    by_cases hsame : q = startOf w target
    · rw [hsame]
      exact (Files.makeDirectories_grows hmade).directory h.start
    · exact (hentry q).1 ⟨hfirst, hsame, hq⟩
  have hbeyond (last : String) : made.entry? (startOf w target ++ target.parts.dropLast ++ [last]) =
      w.files.entry? (startOf w target ++ (target.parts.dropLast ++ [last])) := by
    rw [List.append_assoc]
    exact Files.entry?_makeDirectories_beyond habove hmade last
  refine ⟨made, hmade, h.named, ?_, ?_, hname, ?_, ?_⟩
  · exact Files.walk_ok habove fun q hfirst hq _ => hdirectory q hfirst hq
  · exact hdirectory _ (List.prefix_append _ _) (List.prefix_refl _)
  · exact fun hdir => h.unfinished ((hbeyond _).symm.trans hdir)
  · refine fun hdir => h.finished ?_
    rw [hparts]
    exact (hbeyond _).symm.trans hdir

/-- A body is saved where the file system takes it. -/
theorem World.Receives.saved (h : w.Receives target) {f : Fetched} (hf : f.brokenBy = none) :
    ∃ files, (makeDirectories target.parent >>= fun _ => saveFetched f target : Run σ Unit) w =
        (.ok (), { w with files := files }) ∧
      ({ w with files := files } : World σ).at? target = some (.file f.content) := by
  obtain ⟨made, hmade, hadmits⟩ := h.admits
  have hmake : (makeDirectories target.parent : Run σ Unit) w = (.ok (), { w with files := made }) := by
    unfold makeDirectories
    rw [changeFiles_apply, show startOf w target.parent = startOf w target from rfl, hmade]
  rw [bind_of_ok hmake, saveFetched_complete hadmits hf]
  refine ⟨_, rfl, (World.at?_of_walk (hadmits.walk_saved f.content)).trans ?_⟩
  exact (hadmits.entry?_saved f.content _).trans (if_pos rfl)

namespace Repositories

variable {r : Repositories} {c : Coordinates}

/-- How keeping a body ends: it was found, unless the file system fails. -/
theorem keep_cases (f : Fetched) (hf : f.brokenBy = none) (target : Path) (w : World σ) :
    ∃ result w', keep f target w = (result, w') ∧ w'.urls = w.urls ∧
      (result = .ok true ∨ ∃ e, result = .error e ∧ e.OfFiles) ∧
      (w.Receives target → result = .ok true ∧ w'.at? target = some (.file f.content)) := by
  have hworks : Leads Fault.OfFiles (fun v => v.urls = w.urls) (keep f target : Run σ Bool)
      (fun found v => found = true ∧ v.urls = w.urls) (fun v => v.urls = w.urls) := by
    refine Leads.bind (worksOnFiles_changeFiles (fun _ _ h => h) _) fun _ => ?_
    refine (worksOnFiles_saveFetched (fun _ _ h => h) hf target).bind fun _ => ?_
    exact leads_pure fun _ hw => ⟨rfl, hw⟩
  have hended := hworks.ended w rfl
  have hsaved (h : w.Receives target) : ∃ w', keep f target w = (.ok true, w') ∧
      w'.at? target = some (.file f.content) := by
    obtain ⟨files, hsaved, hthere⟩ := h.saved hf
    refine ⟨{ w with files := files }, ?_, hthere⟩
    unfold keep
    rw [← bind_assoc]
    exact bind_of_ok hsaved
  rcases hkeep : keep f target w with ⟨e | found, w'⟩
  all_goals rw [hkeep] at hended hsaved
  · refine ⟨_, _, rfl, hended.1, .inr ⟨e, rfl, hended.2⟩, fun h => ?_⟩
    obtain ⟨w'', hok, -⟩ := hsaved h
    cases hok
  · obtain ⟨rfl, hurls⟩ := hended
    refine ⟨_, _, rfl, hurls, .inl rfl, fun h => ?_⟩
    obtain ⟨w'', hok, hthere⟩ := hsaved h
    cases hok
    exact ⟨rfl, hthere⟩

section Settling

/-! The first answer that is not a 404 settles the search. -/

variable {before after : List String} (hmissing : ∀ n < before.length, (w.answer n).IsMissing)

theorem asking_next (w : World σ) (place : String) (before : List String) (remote : String) :
    (w.asking (before.map (address place))).asking [(Url.ofText (remote ++ "/" ++ place)).normal.text] =
      w.asking ((before ++ [remote]).map (address place)) := by
  rw [World.asking_asking, List.map_append]
  rfl

theorem answer_next (w : World σ) (place : String) (before : List String) :
    (w.asking (before.map (address place))).answer 0 = w.answer before.length := by
  rw [World.answer_asking, List.length_map]
  rfl

include hmissing

theorem downloadFirst_refused (hanswer : w.answer before.length = .served status location content)
    (herror : 400 ≤ status) (hother : status ≠ 404) :
    downloadFirst place target (before ++ remote :: after) w =
      (.error (.deploy (.artifact (.refused (remote ++ "/" ++ place) status))),
        w.asking ((before ++ [remote]).map (address place))) := by
  have honce := downloadOnce_refused (remote ++ "/" ++ place) target
    ((answer_next w place before).trans hanswer) herror hother
  rw [asking_next] at honce
  rw [downloadFirst_append place target before _ hmissing, downloadFirst_cons, honce]
  intro e he
  rw [honce] at he
  cases he
  rfl

theorem downloadFirst_served (hanswer : w.answer before.length = .served 200 location content) :
    ∃ result w', downloadFirst place target (before ++ remote :: after) w = (result, w') ∧
      w'.urls = w.urls ++ (before ++ [remote]).map (address place) ∧
      (result = .ok true ∨ ∃ e, result = .error e ∧ e.OfFiles) ∧
      (w.Receives target → result = .ok true ∧ w'.at? target = some (.file content)) := by
  have honce := downloadOnce_served (remote ++ "/" ++ place) target
    ((answer_next w place before).trans hanswer)
  rw [asking_next] at honce
  obtain ⟨result, w', hkeep, hurls, hresult, hreceived⟩ := keep_cases ⟨200, content, none⟩ rfl target
    (w.asking ((before ++ [remote]).map (address place)))
  rw [hkeep] at honce
  have hreceives (h : w.Receives target) :
      (w.asking ((before ++ [remote]).map (address place))).Receives target :=
    ⟨h.named, h.straight, h.start, h.way, h.unfinished, h.finished⟩
  refine ⟨result, w', ?_, hurls, hresult, fun h => hreceived (hreceives h)⟩
  rw [downloadFirst_append place target before _ hmissing, downloadFirst_cons, honce]
  · rcases hresult with rfl | ⟨e, rfl, -⟩ <;> rfl
  · intro e he
    rw [honce] at he
    rcases hresult with rfl | ⟨e', rfl, hfiles⟩
    · cases he
    · cases he
      exact hfiles.lasting

end Settling

theorem resolve_of_absent (hcomplete : c.missing? = none) (hplace : c.repositoryPath? = some place)
    (habsent : w.at? (r.localPath.child place) = none) (hremotes : r.remotes ≠ []) : r.resolve c w =
      match downloadFirst place (r.localPath.child place) r.remotes w with
      | (.ok true, w₁) => (.ok (r.localPath.child place), w₁)
      | (.ok false, w₁) => (.error (.deploy (.artifact (.unresolvedFrom c.text r.remotes))), w₁)
      | (.error e, w₁) => (.error e, w₁) := by
  rw [resolve_apply hplace, hcomplete, habsent]
  dsimp only
  have hsome : ¬r.remotes.isEmpty := by simpa using hremotes
  refine (if_neg (by decide)).trans ((if_neg hsome).trans ?_)
  rcases downloadFirst place (r.localPath.child place) r.remotes w with ⟨e | found, w₁⟩
  · rfl
  · cases found <;> rfl

/-- An artifact that is not in the local repository is looked for in the remote ones in order, up to the
first whose answer is not a 404. If that one serves it, its body is the file that is given, unless the
file system fails; if it answers with another error, that is reported and no other repository is asked.
Only if none has it, all of them are reported. -/
theorem resolve_searches (hcomplete : c.missing? = none) (hplace : c.repositoryPath? = some place)
    (habsent : w.at? (r.localPath.child place) = none) :
    (∀ before remote after, r.remotes = before ++ remote :: after →
      (∀ n < before.length, (w.answer n).IsMissing) → ∀ status location content,
      w.answer before.length = .served status location content →
      (status = 200 →
        (r.resolve c w).2.urls = w.urls ++ (before ++ [remote]).map (address place) ∧
        (∀ e, (r.resolve c w).1 = .error e → e.OfFiles) ∧
        (w.Receives (r.localPath.child place) → (r.resolve c w).1 = .ok (r.localPath.child place) ∧
          (r.resolve c w).2.at? (r.localPath.child place) = some (.file content))) ∧
      (400 ≤ status → status ≠ 404 →
        (r.resolve c w).2.urls = w.urls ++ (before ++ [remote]).map (address place) ∧
        (r.resolve c w).1 = .error (.deploy (.artifact (.refused (remote ++ "/" ++ place) status))))) ∧
    ((∀ n < r.remotes.length, (w.answer n).IsMissing) →
      (r.resolve c w).2.urls = w.urls ++ r.remotes.map (address place) ∧
      (r.resolve c w).1 = .error (.deploy (.artifact
        (if r.remotes.isEmpty then .unresolved c.text else .unresolvedFrom c.text r.remotes)))) := by
  refine ⟨fun before remote after hremotes hmissing status location content hanswer => ?_, fun hmissing => ?_⟩
  · have hsome : r.remotes ≠ [] := by simp [hremotes]
    rw [resolve_of_absent hcomplete hplace habsent hsome, hremotes]
    refine ⟨fun hserved => ?_, fun herror hother => ?_⟩
    · subst hserved
      obtain ⟨result, w', hrun, hurls, hresult, hreceived⟩ :
          ∃ result w', downloadFirst place (r.localPath.child place) (before ++ remote :: after) w =
            (result, w') ∧ _ := downloadFirst_served hmissing hanswer
      rw [hrun]
      rcases hresult with rfl | ⟨e, rfl, hfiles⟩
      · exact ⟨hurls, nofun, fun h => ⟨rfl, (hreceived h).2⟩⟩
      · refine ⟨hurls, ?_, fun h => ?_⟩
        · rintro _ ⟨⟩
          exact hfiles
        · cases (hreceived h).1
    · rw [downloadFirst_refused hmissing hanswer herror hother]
      exact ⟨rfl, rfl⟩
  · by_cases hsome : r.remotes = []
    · rw [resolve_apply hplace, hcomplete, habsent]
      simp [hsome]
    · have hall := downloadFirst_append (w := w) place (r.localPath.child place) r.remotes [] hmissing
      rw [List.append_nil] at hall
      rw [resolve_of_absent hcomplete hplace habsent hsome, hall]
      exact ⟨rfl, by rw [if_neg (by simpa using hsome)]; rfl⟩

/-- Two repositories, of which the first forbids what the second has. -/
def divided : Repositories := ⟨.ofText "/repo", ["http://a", "http://b"]⟩

def portal : Coordinates := ⟨some "org.example", some "portal", some "1.0", "war", none⟩

def portalPlace : String := "org/example/portal/1.0/portal-1.0.war"

def forbidding : World Unit :=
  { World.quiet () (.ofText "/work") (.ofText "/home") with
    downloads := [.served 403 none (.text ""), .served 200 none (.text "portal")] }

/-- The second repository is not asked after a refusal, although it has the artifact. -/
theorem resolve_abandons : portal.missing? = none ∧ portal.repositoryPath? = some portalPlace ∧
    forbidding.at? (divided.localPath.child portalPlace) = none ∧
    forbidding.downloads[1]? = some (.served 200 none (.text "portal")) ∧
    (divided.resolve portal forbidding).1 = .error (.deploy (.artifact
      (.refused ("http://a" ++ "/" ++ portalPlace) 403))) := ⟨rfl, rfl, rfl, rfl, rfl⟩

def yielding : World Unit :=
  { forbidding with downloads := [.served 404 none (.text ""), .served 200 none (.text "portal")] }

theorem yielding_receives : yielding.Receives (divided.localPath.child portalPlace) where
  named := by decide
  straight := by decide
  start := rfl
  way q content _ := by
    by_cases hq : q = []
    · rw [hq]
      exact nofun
    · rw [Files.entry?_of_ne_nil hq]
      exact nofun
  unfinished := by decide
  finished := by decide

/-- The artifact comes from the second repository when the first does not have it. -/
theorem resolve_searches_portal :
    (divided.resolve portal yielding).1 = .ok (divided.localPath.child portalPlace) := by
  have hmissing (n : Nat) (hn : n < ["http://a"].length) : (yielding.answer n).IsMissing := by
    obtain rfl : n = 0 := Nat.lt_one_iff.mp hn
    exact ⟨none, .text "", rfl⟩
  have hplace : portal.repositoryPath? = some portalPlace := by decide
  have hcomplete : portal.missing? = none := by decide
  have habsent : yielding.at? (divided.localPath.child portalPlace) = none := by decide
  obtain ⟨hfirst, -⟩ := resolve_searches hcomplete hplace habsent
  obtain ⟨hserved, -⟩ := hfirst ["http://a"] "http://b" [] rfl hmissing 200 none (.text "portal") rfl
  exact ((hserved rfl).2.2 yielding_receives).1

end Repositories

end ServerDeploy
