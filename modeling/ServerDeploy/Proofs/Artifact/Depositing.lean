import ServerDeploy.Proofs.Artifact.Saving
import ServerDeploy.Proofs.World.Endings

/-! What downloads leave behind. Attempts, repositories and the places that requests are sent on to come
and go, and files stay as they are until one complete body is at its place; nothing else is ever left. -/

namespace ServerDeploy

open Run

variable {σ : Type} {w₀ w : World σ} {target : Path}

namespace World

theorem at?_alike {w w' : World σ} (hdirectory : w'.directory = w.directory)
    (hfiles : w'.files.Alike w.files) (p : Path) : w'.at? p = w.at? p := by
  unfold at?
  rw [startOf_congr hdirectory, Files.find_alike hfiles]

/-- The directories that are made for a target lead to where its path led before. -/
structure Settles (w : World σ) (target : Path) : Prop where
  straight : target.name ≠ ".."
  kept : ∀ files, w.files.makeDirectories (startOf w target) target.parent.parts = .ok files →
    ({ w with files := files } : World σ).at? target = w.at? target ∧
      ({ w with files := files } : World σ).at? target.unfinished = w.at? target.unfinished

/-- A path that leads down leads nowhere else when directories are made on it. -/
theorem settles_of_straight (hwhole : w.files.Whole) (hnamed : target.parts ≠ [])
    (hstraight : ".." ∉ target.parts) : w.Settles target := by
  obtain ⟨habove, hname⟩ := Path.straight_parts hnamed hstraight
  refine ⟨hname, fun files hmade => ?_⟩
  have same (p : Path) (last : String) (hstart : startOf w p = startOf w target)
      (hparts : p.parts = target.parts.dropLast ++ [last]) (hlast : last ≠ "..") :
      ({ w with files := files } : World σ).at? p = w.at? p := by
    have hdown : ".." ∉ p.parts := by
      rw [hparts]
      simp [habove, hlast.symm]
    have hentry : files.entry? (startOf w p ++ p.parts) = w.files.entry? (startOf w p ++ p.parts) := by
      rw [hstart, hparts]
      exact Files.entry?_makeDirectories_beyond habove hmade last
    have hdirs (hthere : w.files.entry? (startOf w p ++ p.parts) ≠ none) (q : Place)
        (_ : startOf w p <+: q) (hq : q <+: startOf w p ++ p.parts) (hne : q ≠ startOf w p ++ p.parts) :
        w.files.entry? q = some .directory := hwhole.above hthere hq hne
    refine (World.at?_straight (w := { w with files := files }) hdown fun hthere q hfirst hq hne => ?_).trans
      (hentry.trans (World.at?_straight hdown hdirs).symm)
    exact (Files.makeDirectories_grows hmade).directory (hdirs (hentry ▸ hthere) q hfirst hq hne)
  exact ⟨same target _ rfl (Path.parts_eq hnamed) hname,
    same target.unfinished _ rfl rfl (ne_partialName target).1⟩

/-- Nothing was saved yet; the directories for the target may be there. -/
structure Pending (w₀ : World σ) (target : Path) (w : World σ) : Prop where
  directory : w.directory = w₀.directory
  downloads : ∃ used, w₀.downloads = used ++ w.downloads
  files : w.files.Alike w₀.files ∨
    ∃ made, w₀.files.makeDirectories (startOf w₀ target) target.parent.parts = .ok made ∧
      w.files.Alike made

/-- The body of one answer is at the target, and nothing else that was a file is different. -/
structure Placed (w₀ : World σ) (target : Path) (w : World σ) : Prop where
  directory : w.directory = w₀.directory
  unfinished : w.at? target.unfinished = none
  body : ∃ used status location content before, w₀.downloads = used ++ w.downloads ∧
    .served status location content ∈ used ∧ status < 400 ∧ w₀.files.Grows before ∧
      before.Deposits w.files (startOf w₀ target) target content

theorem pending_refl (w : World σ) (target : Path) : w.Pending target w :=
  ⟨rfl, ⟨[], rfl⟩, .inl (.refl _)⟩

theorem Pending.grows (h : w₀.Pending target w) : w₀.files.Grows w.files := by
  rcases h.files with hsame | ⟨made, hmade, hsame⟩
  · exact hsame.symm.grows
  · exact (Files.makeDirectories_grows hmade).trans hsame.symm.grows

theorem Pending.at? (h : w₀.Pending target w) (hs : w₀.Settles target) :
    w.at? target = w₀.at? target ∧ w.at? target.unfinished = w₀.at? target.unfinished := by
  rcases h.files with hsame | ⟨made, hmade, hsame⟩
  · exact ⟨at?_alike h.directory hsame _, at?_alike h.directory hsame _⟩
  · obtain ⟨htarget, hunfinished⟩ := hs.kept made hmade
    exact ⟨(at?_alike (w := { w₀ with files := made }) h.directory hsame _).trans htarget,
      (at?_alike (w := { w₀ with files := made }) h.directory hsame _).trans hunfinished⟩

theorem Pending.alike (h : w₀.Pending target w) {files : Files} (hfiles : files.Alike w.files) :
    w₀.Pending target { w with files := files } := by
  refine ⟨h.directory, h.downloads, ?_⟩
  rcases h.files with hsame | ⟨made, hmade, hsame⟩
  · exact .inl (hfiles.trans hsame)
  · exact .inr ⟨made, hmade, hfiles.trans hsame⟩

end World

open World

/-- A body that is complete and no error is that of one of the answers so far. -/
def Fetched.Stored (w₀ : World σ) (f : Fetched) (w : World σ) : Prop :=
  f.brokenBy = none → f.status < 400 →
    ∃ used location, w₀.downloads = used ++ w.downloads ∧ .served f.status location f.content ∈ used

namespace Run

variable (w₀ target)

/-- A computation that downloads to the target saves a body or leaves files as they are. -/
abbrev Pends {α : Type} (body : Run σ α) (Q : α → World σ → Prop) : Prop :=
  Leads (fun _ => True) (w₀.Pending target) body Q (w₀.Pending target)

theorem pends_ask (u : Url) : Pends w₀ target (ask u) fun d w => w₀.Pending target w ∧
    (d = noDownload ∨ ∃ used, w₀.downloads = used ++ w.downloads ∧ d ∈ used) := by
  refine ⟨fun w hw => ?_⟩
  obtain ⟨used, hused⟩ := hw.downloads
  unfold ask
  rw [modifyGet_apply]
  cases hd : w.downloads with
  | nil => exact ⟨⟨hw.directory, ⟨used, by rw [hused, hd]; rfl⟩, hw.files⟩, .inl rfl⟩
  | cons d rest =>
    have hsplit : w₀.downloads = (used ++ [d]) ++ rest := by simp [hused, hd]
    exact ⟨⟨hw.directory, ⟨_, hsplit⟩, hw.files⟩, .inr ⟨_, hsplit, by simp⟩⟩

theorem pends_fetchFrom (left : Nat) (u : Url) : Pends w₀ target (fetchFrom left u) fun f w =>
    w₀.Pending target w ∧ f.Stored w₀ w := by
  induction left generalizing u with
  | zero => exact leads_throw trivial
  | succ left ih =>
    refine (pends_ask w₀ target u).bind fun d => ?_
    cases d with
    | lost fault => exact ⟨fun w hw => ⟨hw.1, trivial⟩⟩
    | broken received fault => exact leads_pure fun w hw => ⟨hw.1, nofun⟩
    | served status location content =>
      have served : Leads (fun _ => True) (fun w => w₀.Pending target w ∧
          (Download.served status location content = noDownload ∨
            ∃ used, w₀.downloads = used ++ w.downloads ∧ .served status location content ∈ used))
          (pure ⟨status, content, none⟩ : Run σ Fetched)
          (fun f w => w₀.Pending target w ∧ f.Stored w₀ w) (w₀.Pending target) := by
        refine leads_pure fun w ⟨hw, hd⟩ => ⟨hw, fun _ hstatus => ?_⟩
        rcases hd with hnone | ⟨used, hsplit, hmem⟩
        · cases hnone
          exact absurd hstatus (by decide)
        · exact ⟨used, location, hsplit, hmem⟩
      cases location with
      | none => exact served
      | some place =>
        dsimp only
        split
        · exact (ih _).under fun _ h => h.1
        · exact served

theorem pends_makeDirectories {Q : World σ → Prop}
    (hQ : ∀ w files, Q w → Q { w with files := files }) :
    Leads (fun _ => True) (fun w => w₀.Pending target w ∧ Q w) (makeDirectories target.parent)
      (fun _ w => w₀.Pending target w ∧ Q w) (w₀.Pending target) := by
  refine ⟨fun w ⟨hw, hq⟩ => ?_⟩
  have hstart : startOf w target.parent = startOf w₀ target := startOf_congr hw.directory target
  unfold makeDirectories
  rw [changeFiles_apply, hstart]
  -- an attempt finds the files untouched, or what an earlier attempt made
  rcases hw.files with hsame | ⟨made, hmade, hsame⟩
  · rcases Files.makeDirectories_alike hsame (startOf w₀ target) target.parent.parts with
      ⟨e, he, -⟩ | ⟨files, made, hfiles, hmade, halike⟩
    · rw [he]
      exact ⟨hw, trivial⟩
    · rw [hfiles]
      exact ⟨⟨hw.directory, hw.downloads, .inr ⟨made, hmade, halike⟩⟩, hQ w _ hq⟩
  · rw [Files.makeDirectories_made hmade fun place hplace => (hsame place).trans hplace]
    exact ⟨hw, hq⟩

section Saving

variable {w₀ target} (hs : w₀.Settles target) (habsent : w₀.at? target = none)
  (hfree : w₀.at? target.unfinished = none)

include hs habsent hfree

theorem pends_saveFetched {f : Fetched} (hstatus : f.status < 400) :
    Leads (fun _ => True) (fun w => w₀.Pending target w ∧ f.Stored w₀ w) (saveFetched f target)
      (fun _ => w₀.Placed target) (w₀.Pending target) := by
  refine ⟨fun w ⟨hw, hstored⟩ => ?_⟩
  obtain ⟨htarget, hunfinished⟩ := hw.at? hs
  rcases saveFetched_cases f hs.straight (htarget.trans habsent) (hunfinished.trans hfree) with
    ⟨e, files, hrun, halike⟩ | ⟨hcomplete, files, hrun, hdeposits, hgone⟩
  · rw [hrun]
    exact ⟨hw.alike halike, trivial⟩
  · rw [hrun]
    obtain ⟨used, location, hsplit, hmem⟩ := hstored hcomplete hstatus
    rw [startOf_congr hw.directory] at hdeposits
    exact ⟨hw.directory, hgone, used, _, location, _, _, hsplit, hmem, hstatus, hw.grows, hdeposits⟩

omit hs hfree in
theorem pends_pathExists (hs : w₀.Settles target) : Pends w₀ target (pathExists target) fun found w =>
    w₀.Pending target w ∧ found = false := by
  refine ⟨fun w hw => ?_⟩
  rw [pathExists_apply, (hw.at? hs).1, habsent]
  exact ⟨hw, rfl⟩

end Saving

end Run

/-- The computations that get a file from the network to a path. -/
inductive Gets : Run σ Path → Path → Prop
  | artifact {r : Repositories} {c : Coordinates} {place : String}
      (hplace : c.repositoryPath? = some place) : Gets (r.resolve c) (r.localPath.child place)
  | runtime (url : String) (target : Path) : Gets (Distribution.download url target) target

section Getting

variable (hs : w₀.Settles target) (habsent : w₀.at? target = none)
  (hfree : w₀.at? target.unfinished = none)

include hs habsent hfree

theorem Repositories.pends_downloadOnce (url : String) :
    Pends w₀ target (downloadOnce url target) fun found w =>
      if found then w₀.Placed target w else w₀.Pending target w := by
  refine (pends_fetchFrom w₀ target _ _).bind fun f => ?_
  split
  · exact leads_pure fun w hw => hw.1
  split
  · exact (leads_throw trivial).under fun w hw => hw.1
  next hstatus =>
  refine (pends_makeDirectories w₀ target fun w files hw => hw).bind fun _ => ?_
  refine (pends_saveFetched hs habsent hfree (Nat.lt_of_not_le hstatus)).bind fun _ => ?_
  exact leads_pure fun w hw => hw

theorem Repositories.pends_downloadFirst (place : String) (remotes : List String) :
    Pends w₀ target (downloadFirst place target remotes) fun found w =>
      if found then w₀.Placed target w else w₀.Pending target w := by
  induction remotes with
  | nil => exact leads_pure fun w hw => hw
  | cons remote rest ih =>
    refine (leads_withRetry _ (pends_downloadOnce hs habsent hfree _) fun w _ hw => ?_).bind fun found => ?_
    · exact ⟨hw.directory, hw.downloads, hw.files⟩
    cases found with
    | true => exact leads_pure fun w hw => hw
    | false => exact ih

theorem Distribution.pends_download (url : String) :
    Pends w₀ target (download url target) fun p w => p = target ∧ w₀.Placed target w := by
  refine leads_withRetry _ ?_ fun w _ hw => ⟨hw.directory, hw.downloads, hw.files⟩
  refine (pends_pathExists habsent hs).bind fun found => ?_
  split
  · next hfound => exact ⟨fun w hw => absurd (hfound.symm.trans hw.2) (by decide)⟩
  refine Leads.under (K := fun w => w₀.Pending target w ∧ True) ?_ fun w hw => ⟨hw.1, trivial⟩
  refine (pends_makeDirectories w₀ target fun w files hw => hw).bind fun _ => ?_
  refine ((pends_fetchFrom w₀ target _ _).under fun w hw => hw.1).bind fun f => ?_
  split
  · exact ⟨fun w hw => ⟨hw.1, trivial⟩⟩
  next hstatus =>
  refine (pends_saveFetched hs habsent hfree (Nat.lt_of_not_le hstatus)).bind fun _ => ?_
  exact leads_pure fun w hw => ⟨rfl, hw⟩

end Getting

/-- What a download has done to the files when it is over, and what it gave: nothing that it began is left,
and no file is different, unless there was none at the target and now the complete body of one answer is;
the path that is given leads to a file. -/
structure World.Deposits (w : World σ) (target : Path) (result : Except Fault Path) (w' : World σ) :
    Prop where
  unfinished : w'.at? target.unfinished = none
  saved : w'.at? target = w.at? target ∧
      (∀ place content, w'.files.entry? place = some (.file content) ↔
        w.files.entry? place = some (.file content)) ∨
    w.at? target = none ∧ ∃ used status location content, w.downloads = used ++ w'.downloads ∧
      .served status location content ∈ used ∧ status < 400 ∧ w'.at? target = some (.file content) ∧
      ∀ place, w'.files.walk (startOf w target) target.parts ≠ .ok place → ∀ content,
        (w'.files.entry? place = some (.file content) ↔ w.files.entry? place = some (.file content))
  given : ∀ p, result = .ok p → p = target ∧ (w'.at? target).isSome = true

namespace World

theorem Pending.outcome (h : w₀.Pending target w) (hs : w₀.Settles target)
    (hfree : w₀.at? target.unfinished = none) (e : Fault) : w₀.Deposits target (.error e) w := by
  obtain ⟨htarget, hunfinished⟩ := h.at? hs
  exact ⟨hunfinished.trans hfree, .inl ⟨htarget, h.grows.file_iff⟩, nofun⟩

theorem Placed.outcome (h : w₀.Placed target w) (habsent : w₀.at? target = none) :
    w₀.Deposits target (.ok target) w := by
  obtain ⟨used, status, location, content, before, hsplit, hmem, hstatus, hgrows, place, hwalk, hentry⟩ :=
    h.body
  have hthere : w.at? target = some (.file content) := by
    rw [World.at?_of_walk ((startOf_congr h.directory target).symm ▸ hwalk), hentry, if_pos rfl]
  refine ⟨h.unfinished, .inr ⟨habsent, used, status, location, content, hsplit, hmem, hstatus, hthere,
    fun q hq content => ?_⟩, fun _ hp => ⟨(Except.ok.inj hp).symm, by rw [hthere]; rfl⟩⟩
  have hne : q ≠ place := by
    rintro rfl
    exact hq hwalk
  rw [hentry, if_neg hne]
  exact hgrows.file_iff q content

end World

theorem Repositories.resolve_apply {c : Coordinates} {place : String}
    (hplace : c.repositoryPath? = some place) (r : Repositories) (w : World σ) : r.resolve c w =
      match c.missing? with
      | some problem => (.error (.deploy (.artifact problem)), w)
      | none =>
        if (w.at? (r.localPath.child place)).isSome then (.ok (r.localPath.child place), w)
        else if r.remotes.isEmpty then (.error (.deploy (.artifact (.unresolved c.text))), w)
        else match downloadFirst place (r.localPath.child place) r.remotes w with
          | (.ok true, w₁) => (.ok (r.localPath.child place), w₁)
          | (.ok false, w₁) => (.error (.deploy (.artifact (.unresolvedFrom c.text r.remotes))), w₁)
          | (.error e, w₁) => (.error e, w₁) := by
  unfold resolve
  rw [hplace]
  cases c.missing? with
  | some problem => rfl
  | none =>
    dsimp only
    rw [bind_of_ok (pathExists_apply _ w)]
    split
    · rfl
    split
    · rfl
    rw [bind_apply]
    rcases downloadFirst place (r.localPath.child place) r.remotes w with ⟨e | found, w₁⟩
    · rfl
    · cases found <;> rfl

theorem Distribution.download_of_there (url : String) (hthere : (w.at? target).isSome = true) :
    download url target w = (.ok target, w) := by
  have honce : downloadOnce url target w = (.ok target, w) := by
    unfold downloadOnce
    rw [bind_of_ok (pathExists_apply _ w), hthere]
    rfl
  refine (withRetry_of_lasting _ fun e he => ?_).trans honce
  rw [honce] at he
  cases he

theorem deposits_of_there (hfree : w.at? target.unfinished = none) (hthere : (w.at? target).isSome = true) :
    w.Deposits target (.ok target) w :=
  ⟨hfree, .inl ⟨rfl, fun _ _ => Iff.rfl⟩, fun _ hp => ⟨(Except.ok.inj hp).symm, hthere⟩⟩

theorem Repositories.resolve_deposits {c : Coordinates} {place : String}
    (hplace : c.repositoryPath? = some place) (r : Repositories) (hs : w.Settles (r.localPath.child place))
    (hfree : w.at? (r.localPath.child place).unfinished = none) :
    w.Deposits (r.localPath.child place) (r.resolve c w).1 (r.resolve c w).2 := by
  have kept (e : Fault) := (pending_refl w (r.localPath.child place)).outcome hs hfree e
  rw [resolve_apply hplace]
  cases c.missing? with
  | some problem => exact kept _
  | none =>
    dsimp only
    split
    · next hthere => exact deposits_of_there hfree hthere
    next hthere =>
    split
    · exact kept _
    have habsent : w.at? (r.localPath.child place) = none := by simpa using hthere
    have hended := (pends_downloadFirst hs habsent hfree place r.remotes).ended w (pending_refl w _)
    rcases hd : downloadFirst place (r.localPath.child place) r.remotes w with ⟨e | found, w₁⟩
    all_goals rw [hd] at hended
    · exact hended.1.outcome hs hfree e
    · cases found with
      | true => exact Placed.outcome hended habsent
      | false => exact Pending.outcome hended hs hfree _

theorem Distribution.download_deposits (url : String) (hs : w.Settles target)
    (hfree : w.at? target.unfinished = none) :
    w.Deposits target (download url target w).1 (download url target w).2 := by
  cases hat : w.at? target with
  | some e =>
    have hthere : (w.at? target).isSome = true := by rw [hat]; rfl
    rw [download_of_there url hthere]
    exact deposits_of_there hfree hthere
  | none =>
    have hended := (pends_download hs hat hfree url).ended w (pending_refl w _)
    rcases hd : download url target w with ⟨e | p, w₁⟩
    all_goals rw [hd] at hended
    · exact hended.1.outcome hs hfree e
    · obtain ⟨rfl, hplaced⟩ := hended
      exact hplaced.outcome hat

/-- However a download ends, and whatever answers, failures and interrupts it met, it leaves either the files
as they were or the complete body of one good answer at a target where nothing was; and a path is given
only to what is there. -/
theorem Gets.deposits {body : Run σ Path} (h : Gets body target) (hs : w.Settles target)
    (hfree : w.at? target.unfinished = none) : w.Deposits target (body w).1 (body w).2 := by
  cases h with
  | artifact hplace => exact Repositories.resolve_deposits hplace _ hs hfree
  | runtime url => exact Distribution.download_deposits url hs hfree

/-- A server that cannot be reached at first, then breaks off, and then sends all of the file. -/
def flaky : World Unit :=
  { World.quiet () (.ofText "/work") (.ofText "/home") with
    downloads := [.lost (.transport "unreachable"), .broken "ha" (.transport "broken off"),
      .served 200 none (.text "half and half")] }

theorem Gets.deposits_flaky : flaky.Deposits (.ofText "/build/as.zip")
    (Distribution.download "http://h/as.zip" (.ofText "/build/as.zip") flaky).1
    (Distribution.download "http://h/as.zip" (.ofText "/build/as.zip") flaky).2 := by
  have hwhole : flaky.files.Whole := by
    intro place hplace
    have hroot : place = [] := by
      by_contra hne
      exact hplace (Files.entry?_of_ne_nil hne)
    rw [hroot]
    rfl
  exact Gets.deposits (.runtime "http://h/as.zip" (.ofText "/build/as.zip"))
    (settles_of_straight hwhole (by decide) (by decide)) (by decide)

end ServerDeploy
