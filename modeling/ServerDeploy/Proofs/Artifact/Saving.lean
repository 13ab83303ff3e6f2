import ServerDeploy.Proofs.World.Tree
import ServerDeploy.Server.Distribution

/-! How the body of a download is saved. It is written beside its place, and only a complete one is moved
there; of one that broke off nothing is left. -/

namespace ServerDeploy

open Run

variable {σ : Type}

/-- Where the body of a download is kept until it is complete. -/
def Path.unfinished (p : Path) : Path := p.withName (partialName p)

namespace Files

/-- The files once a body was written beside its place and removed again. -/
def dropped (files : Files) (part : Place) (content : Content) : Files :=
  (files.set part (.file content)).erase part

/-- The files once a body was written beside its place and moved there. -/
def saved (files : Files) (part place : Place) (content : Content) : Files :=
  ((files.set part (.file content)).set place (.file content)).erase part

variable {files : Files} {part place : Place}

theorem entry?_dropped (hpart : files.entry? part ≠ some .directory) (content : Content) (q : Place) :
    Files.entry? (files.dropped part content) q = if q = part then none else files.entry? q := by
  have hne := ne_nil_of_free hpart
  unfold dropped
  rw [entry?_erase hne, entry?_set hne]
  split <;> rfl

theorem entry?_saved (hpart : files.entry? part ≠ some .directory)
    (hplace : files.entry? place ≠ some .directory) (content : Content) (q : Place) :
    Files.entry? (files.saved part place content) q =
      if q = part then none else if q = place then some (.file content) else files.entry? q := by
  have hne := ne_nil_of_free hpart
  unfold saved
  rw [entry?_erase hne, entry?_set (ne_nil_of_free hplace), entry?_set hne]
  by_cases hq : q = part
  · rw [if_pos hq, if_pos hq]
  · rw [if_neg hq, if_neg hq, if_neg hq]

end Files

theorem Path.parts_eq {p : Path} (h : p.parts ≠ []) : p.parts = p.parts.dropLast ++ [p.name] := by
  unfold Path.name
  rw [List.getLast?_eq_some_getLast h, Option.getD_some, List.dropLast_concat_getLast h]

theorem Path.straight_parts {p : Path} (h : p.parts ≠ []) (hstraight : ".." ∉ p.parts) :
    ".." ∉ p.parts.dropLast ∧ p.name ≠ ".." := by
  rw [Path.parts_eq h, List.mem_append, List.mem_singleton, not_or] at hstraight
  exact ⟨hstraight.1, Ne.symm hstraight.2⟩

section Saving

variable {target : Path} {w : World σ} {above : Place}

theorem ne_partialName (target : Path) :
    partialName target ≠ ".." ∧ partialName target ≠ target.name := by
  have hlength : (partialName target).length = target.name.length + 5 := by
    unfold partialName
    rw [String.length_append]
    rfl
  constructor
  · intro h
    rw [h] at hlength
    have htwo : "..".length = 2 := rfl
    omega
  · intro h
    rw [h] at hlength
    omega

/-- The directory above a target is there, and nothing else has either of its two places. -/
structure World.Admits (w : World σ) (target : Path) (above : Place) : Prop where
  named : target.parts ≠ []
  walk : w.files.walk (startOf w target) target.parts.dropLast = .ok above
  directory : w.files.entry? above = some .directory
  straight : target.name ≠ ".."
  unfinished : w.files.entry? (above ++ [partialName target]) ≠ some .directory
  finished : w.files.entry? (above ++ [target.name]) ≠ some .directory

variable (h : w.Admits target above)

include h

theorem World.Admits.walk_concat {files : Files} {name : String} (hname : name ≠ "..")
    (hdirs : ∀ q, w.files.entry? q = some .directory → files.entry? q = some .directory) :
    files.walk (startOf w target) (target.parts.dropLast ++ [name]) = .ok (above ++ [name]) := by
  rw [Files.walk_concat]
  exact ⟨above, Files.walk_mono hdirs h.walk, hdirs above h.directory, (Files.step_of_ne hname).symm⟩

theorem writeContent_unfinished (content : Content) :
    (writeContent target.unfinished content : Run σ Unit) w =
      (.ok (), { w with files := w.files.set (above ++ [partialName target]) (.file content) }) := by
  have hwalk := h.walk_concat (ne_partialName target).1 fun _ hq => hq
  have hwrite : w.files.write (startOf w target.unfinished) target.unfinished.parts content =
      .ok (w.files.set (above ++ [partialName target]) (.file content)) := by
    refine Files.write_eq hwalk ?_ h.unfinished content
    rw [List.dropLast_concat]
    exact h.directory
  unfold writeContent
  rw [changeFiles_apply, hwrite]

theorem find_unfinished {files : Files} {content : Content}
    (hdirs : ∀ q, w.files.entry? q = some .directory → files.entry? q = some .directory)
    (hpart : files.entry? (above ++ [partialName target]) = some (.file content)) :
    files.find (startOf w target) target.unfinished.parts =
      .ok (above ++ [partialName target], .file content) :=
  Files.find_eq_ok.mpr ⟨h.walk_concat (ne_partialName target).1 hdirs, hpart⟩

omit h in
theorem saveFetched_apply (f : Fetched) (target : Path) (w : World σ) : saveFetched f target w =
    match writeContent target.unfinished f.content w with
    | (.error e, w₁) => (removeFile target.unfinished >>= fun _ => throw e : Run σ Unit) w₁
    | (.ok _, w₁) =>
      match f.brokenBy with
      | some fault => (removeFile target.unfinished >>= fun _ => throw fault : Run σ Unit) w₁
      | none => renameFile target.unfinished target.name w₁ := by
  have hpart : target.withName (partialName target) = target.unfinished := rfl
  unfold saveFetched
  rw [hpart, bind_apply, tryCatch_apply, bind_apply]
  rcases writeContent target.unfinished f.content w with ⟨e | _, w₁⟩
  · dsimp only
    rw [bind_apply]
    rcases removeFile target.unfinished w₁ with ⟨e' | _, w₂⟩ <;> rfl
  · cases f.brokenBy with
    | none => rfl
    | some fault =>
      dsimp only
      rw [throw_apply]
      dsimp only
      rw [bind_apply]
      rcases removeFile target.unfinished w₁ with ⟨e' | _, w₂⟩ <;> rfl

omit h in
theorem renameFile_of_ne {p : Path} {name : String} (hname : name ≠ "..") :
    (renameFile p name : Run σ Unit) = readContent p >>= fun content =>
      writeContent (p.withName name) content >>= fun _ => removeFile p := by
  unfold renameFile
  rw [if_neg (by simpa using hname)]

/-- Of a body that broke off nothing is left. -/
theorem saveFetched_broken {f : Fetched} {fault : Fault} (hf : f.brokenBy = some fault) :
    saveFetched f target w = (.error fault,
      { w with files := w.files.dropped (above ++ [partialName target]) f.content }) := by
  have hpart : Files.entry? (w.files.set (above ++ [partialName target]) (.file f.content))
      (above ++ [partialName target]) = some (.file f.content) :=
    Files.entry?_set_self (Files.ne_nil_of_free h.unfinished) _
  have hfind := find_unfinished h (fun _ hq => Files.directory_set_file h.unfinished f.content hq) hpart
  rw [saveFetched_apply, writeContent_unfinished h, hf]
  exact bind_of_ok (removeFile_of_file hfind)

/-- What was kept beside the place is moved there. -/
theorem renameFile_unfinished {files : Files} {content : Content}
    (hdirs : ∀ q, w.files.entry? q = some .directory → files.entry? q = some .directory)
    (hpart : files.entry? (above ++ [partialName target]) = some (.file content))
    (hfree : files.entry? (above ++ [target.name]) ≠ some .directory) :
    (renameFile target.unfinished target.name : Run σ Unit) { w with files := files } = (.ok (), { w with
      files := (files.set (above ++ [target.name]) (.file content)).erase (above ++ [partialName target]) }) := by
  have hread : (readContent target.unfinished : Run σ Content) { w with files := files } =
      (.ok content, { w with files := files }) := readContent_of_file (find_unfinished h hdirs hpart)
  have hparts : (target.unfinished.withName target.name).parts = target.parts.dropLast ++ [target.name] := by
    simp [Path.unfinished, Path.withName]
  have hwrite : files.write (startOf w target) (target.unfinished.withName target.name).parts content =
      .ok (files.set (above ++ [target.name]) (.file content)) := by
    rw [hparts]
    refine Files.write_eq (h.walk_concat h.straight hdirs) ?_ hfree content
    rw [List.dropLast_concat]
    exact hdirs above h.directory
  have hstart : startOf { w with files := files } (target.unfinished.withName target.name) =
      startOf w target := rfl
  have hmoved : (writeContent (target.unfinished.withName target.name) content : Run σ Unit)
      { w with files := files } =
        (.ok (), { w with files := files.set (above ++ [target.name]) (.file content) }) := by
    unfold writeContent
    rw [changeFiles_apply]
    dsimp only
    rw [hstart, hwrite]
  have hne : above ++ [partialName target] ≠ above ++ [target.name] := by
    simpa using (ne_partialName target).2
  have hkept : Files.entry? (files.set (above ++ [target.name]) (.file content))
      (above ++ [partialName target]) = some (.file content) := by
    rw [Files.entry?_set (Files.ne_nil_of_free hfree), if_neg hne, hpart]
  have hfind := find_unfinished h (fun q hq => Files.directory_set_file hfree _ (hdirs q hq)) hkept
  rw [renameFile_of_ne h.straight, bind_of_ok hread, bind_of_ok hmoved]
  exact @removeFile_of_file _ target.unfinished { w with files := _ } _ _ hfind

/-- A complete body is moved to its place. -/
theorem saveFetched_complete {f : Fetched} (hf : f.brokenBy = none) : saveFetched f target w =
    (.ok (), { w with
      files := w.files.saved (above ++ [partialName target]) (above ++ [target.name]) f.content }) := by
  have hpart : Files.entry? (w.files.set (above ++ [partialName target]) (.file f.content))
      (above ++ [partialName target]) = some (.file f.content) :=
    Files.entry?_set_self (Files.ne_nil_of_free h.unfinished) _
  have hne : above ++ [target.name] ≠ above ++ [partialName target] := by
    simpa using (ne_partialName target).2.symm
  have hfree : Files.entry? (w.files.set (above ++ [partialName target]) (.file f.content))
      (above ++ [target.name]) ≠ some .directory := by
    rw [Files.entry?_set (Files.ne_nil_of_free h.unfinished), if_neg hne]
    exact h.finished
  rw [saveFetched_apply, writeContent_unfinished h, hf]
  exact renameFile_unfinished h (fun _ hq => Files.directory_set_file h.unfinished _ hq) hpart hfree

end Saving

section Saved

variable {target : Path} {w : World σ} {above : Place} (h : w.Admits target above)

include h

theorem World.Admits.directory_saved (content : Content) (q : Place)
    (hq : w.files.entry? q = some .directory) :
    Files.entry? (w.files.saved (above ++ [partialName target]) (above ++ [target.name]) content) q =
      some .directory := by
  rw [Files.entry?_saved h.unfinished h.finished, if_neg, if_neg, hq]
  · rintro rfl
    exact h.finished hq
  · rintro rfl
    exact h.unfinished hq

theorem World.Admits.walk_saved (content : Content) :
    (w.files.saved (above ++ [partialName target]) (above ++ [target.name]) content).walk
      (startOf w target) target.parts = .ok (above ++ [target.name]) := by
  rw [Path.parts_eq h.named]
  exact h.walk_concat h.straight (h.directory_saved content)

theorem World.Admits.entry?_saved (content : Content) (q : Place) :
    Files.entry? (w.files.saved (above ++ [partialName target]) (above ++ [target.name]) content) q =
      if q = above ++ [target.name] then some (.file content)
      else if q = above ++ [partialName target] then none else w.files.entry? q := by
  have hne : above ++ [partialName target] ≠ above ++ [target.name] := by
    simpa using (ne_partialName target).2
  rw [Files.entry?_saved h.unfinished h.finished]
  by_cases hq : q = above ++ [partialName target]
  · rw [if_pos hq, if_neg (hq ▸ hne), if_pos hq]
  · rw [if_neg hq, if_neg hq]

end Saved

/-- A content is at a path, and nothing but that is new. -/
def Files.Deposits (files files' : Files) (start : Place) (p : Path) (content : Content) : Prop :=
  ∃ place, files'.walk start p.parts = .ok place ∧
    ∀ q, files'.entry? q = if q = place then some (.file content) else files.entry? q

variable {target : Path} {w : World σ}

theorem World.Admits.of_write {files : Files} {content : Content} (hstraight : target.name ≠ "..")
    (habsent : w.at? target = none)
    (hwrite : w.files.write (startOf w target) target.unfinished.parts content = .ok files) :
    ∃ above, w.Admits target above := by
  obtain ⟨part, hwalk, -, hpart, -⟩ := Files.write_ok hwrite
  obtain ⟨above, habove, hdirectory, rfl⟩ := (Files.walk_concat _ _).mp hwalk
  rw [Files.step_of_ne (ne_partialName target).1] at hpart
  have hnamed : target.parts ≠ [] := by
    intro hnil
    rw [hnil] at habove
    obtain rfl : startOf w target = above := Except.ok.inj habove
    have hthere : w.at? target = some .directory :=
      World.at?_eq_some.mpr ⟨_, by rw [hnil]; rfl, hdirectory⟩
    rw [habsent] at hthere
    cases hthere
  refine ⟨above, hnamed, habove, hdirectory, hstraight, hpart, fun hfinished => ?_⟩
  have hthere : w.at? target = some .directory := by
    refine World.at?_eq_some.mpr ⟨above ++ [target.name], ?_, hfinished⟩
    rw [Path.parts_eq hnamed, Files.walk_concat]
    exact ⟨above, habove, hdirectory, (Files.step_of_ne hstraight).symm⟩
  rw [habsent] at hthere
  cases hthere

/-- Where neither a file nor what is kept for it is there, a body is saved as a whole or not at all. -/
theorem saveFetched_cases (f : Fetched) (hstraight : target.name ≠ "..") (habsent : w.at? target = none)
    (hfree : w.at? target.unfinished = none) :
    (∃ e files, saveFetched f target w = (.error e, { w with files := files }) ∧ files.Alike w.files) ∨
      f.brokenBy = none ∧ ∃ files, saveFetched f target w = (.ok (), { w with files := files }) ∧
        w.files.Deposits files (startOf w target) target f.content ∧
        World.at? { w with files := files } target.unfinished = none := by
  cases hwrite : w.files.write (startOf w target.unfinished) target.unfinished.parts f.content with
  | error e =>
    have hrefused : (writeContent target.unfinished f.content : Run σ Unit) w =
        (.error (.system (.file e)), w) := by
      unfold writeContent
      rw [changeFiles_apply, hwrite]
    have hremoved := removeFile_of_absent hfree
    rw [saveFetched_apply, hrefused]
    dsimp only
    rw [bind_apply]
    rcases hr : removeFile target.unfinished w with ⟨e' | _, w₁⟩
    all_goals
      rw [hr] at hremoved
      obtain rfl : w₁ = w := hremoved
      exact .inl ⟨_, w₁.files, rfl, .refl _⟩
  | ok files =>
    obtain ⟨above, hadmits⟩ := World.Admits.of_write hstraight habsent hwrite
    have hpart : w.files.entry? (above ++ [partialName target]) = none := by
      cases he : w.files.entry? (above ++ [partialName target]) with
      | none => rfl
      | some e =>
        have hfound : w.at? target.unfinished = some e := World.at?_eq_some.mpr
          ⟨_, hadmits.walk_concat (ne_partialName target).1 fun _ hq => hq, he⟩
        rw [hfree] at hfound
        cases hfound
    cases hbroken : f.brokenBy with
    | some fault =>
      refine .inl ⟨fault, _, saveFetched_broken hadmits hbroken, fun q => ?_⟩
      rw [Files.entry?_dropped hadmits.unfinished]
      split
      · next hq => rw [hq, hpart]
      · rfl
    | none =>
      have hsaved := hadmits.entry?_saved f.content
      refine .inr ⟨rfl, _, saveFetched_complete hadmits hbroken,
        ⟨_, hadmits.walk_saved f.content, fun q => ?_⟩, ?_⟩
      · rw [hsaved]
        split
        · rfl
        split
        · next hq => rw [hq, hpart]
        · rfl
      · have hwalk := hadmits.walk_concat (ne_partialName target).1 (hadmits.directory_saved f.content)
        rw [World.at?_of_walk hwalk, hsaved, if_neg (by simpa using (ne_partialName target).2), if_pos rfl]

end ServerDeploy
