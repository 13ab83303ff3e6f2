import Mathlib.Data.List.Induction
import ServerDeploy.Proofs.World.Reading

/-! The tree of files under the operations on it. Making directories only adds directories, on the way
to a path, and adds none when it is done again; what a walk finds depends on the directories alone. -/

namespace ServerDeploy

namespace Files

variable {files made f g : Files} {here place q : Place} {part : String} {parts rest : List String}
  {e : Entry}

theorem lookup_put (place q : Place) (e : Entry) (entries : List (Place × Entry)) :
    lookup q (put place e entries) = if q = place then some e else lookup q entries := by
  induction entries with
  | nil => simp only [put, lookup, eq_comm]
  | cons first rest ih =>
    obtain ⟨p, e'⟩ := first
    by_cases hp : p = place
    · subst hp
      simp only [put, if_true, lookup]
      by_cases hq : p = q
      · simp [hq]
      · simp [hq, Ne.symm hq]
    · simp only [put, if_neg hp, lookup, ih]
      by_cases hq : p = q
      · subst hq
        simp [hp]
      · simp [hq]

theorem lookup_filter (place q : Place) (entries : List (Place × Entry)) :
    lookup q (entries.filter fun (p, _) => p != place) =
      if q = place then none else lookup q entries := by
  induction entries with
  | nil => simp [lookup]
  | cons first rest ih =>
    obtain ⟨p, e'⟩ := first
    by_cases hp : p = place
    · subst hp
      rw [List.filter_cons_of_neg (by simp), ih]
      by_cases hq : q = p
      · simp [hq]
      · simp [hq, lookup, Ne.symm hq]
    · rw [List.filter_cons_of_pos (by simpa using hp)]
      simp only [lookup, ih]
      by_cases hq : p = q
      · subst hq
        simp [hp]
      · simp [hq]

@[simp] theorem entry?_nil (files : Files) : files.entry? [] = some .directory := rfl

theorem entry?_of_ne_nil (h : q ≠ []) : files.entry? q = lookup q files.entries := by
  unfold entry?
  rw [if_neg (by simpa using h)]

theorem ne_nil_of_free (h : files.entry? place ≠ some .directory) : place ≠ [] := by
  rintro rfl
  exact h rfl

theorem ne_nil_of_absent (h : files.entry? place = none) : place ≠ [] := by
  rintro rfl
  cases h

theorem entry?_set (h : place ≠ []) (e : Entry) (q : Place) :
    Files.entry? (files.set place e) q = if q = place then some e else files.entry? q := by
  by_cases hq : q = []
  · subst hq
    rw [if_neg h.symm]
    rfl
  · rw [entry?_of_ne_nil hq, entry?_of_ne_nil hq]
    exact lookup_put place q e files.entries

theorem entry?_set_self (h : place ≠ []) (e : Entry) : Files.entry? (files.set place e) place = some e := by
  rw [entry?_set h, if_pos rfl]

theorem entry?_erase (h : place ≠ []) (q : Place) :
    Files.entry? (files.erase place) q = if q = place then none else files.entry? q := by
  by_cases hq : q = []
  · subst hq
    rw [if_neg h.symm]
    rfl
  · rw [entry?_of_ne_nil hq, entry?_of_ne_nil hq]
    exact lookup_filter place q files.entries

/-- Two trees that cannot be told apart. -/
def Alike (f g : Files) : Prop := ∀ place, f.entry? place = g.entry? place

theorem Alike.refl (f : Files) : f.Alike f := fun _ => rfl

theorem Alike.symm (h : f.Alike g) : g.Alike f := fun place => (h place).symm

theorem Alike.trans {k : Files} (h : f.Alike g) (h' : g.Alike k) : f.Alike k :=
  fun place => (h place).trans (h' place)

/-- All that is new in the second tree is directories. -/
def Grows (f g : Files) : Prop :=
  ∀ place, g.entry? place = f.entry? place ∨ f.entry? place = none ∧ g.entry? place = some .directory

theorem Grows.refl (f : Files) : f.Grows f := fun _ => .inl rfl

theorem Alike.grows (h : f.Alike g) : f.Grows g := fun place => .inl (h place).symm

theorem Grows.trans {k : Files} (h : f.Grows g) (h' : g.Grows k) : f.Grows k := by
  intro place
  rcases h' place with hsame | ⟨hnone, hnew⟩
  · rw [hsame]
    exact h place
  · rcases h place with hsame | ⟨-, hnew'⟩
    · exact .inr ⟨hsame.symm.trans hnone, hnew⟩
    · rw [hnone] at hnew'
      cases hnew'

theorem Grows.file_iff (h : f.Grows g) (place : Place) (content : Content) :
    g.entry? place = some (.file content) ↔ f.entry? place = some (.file content) := by
  rcases h place with hsame | ⟨hnone, hnew⟩
  · rw [hsame]
  · simp [hnone, hnew]

theorem Grows.directory (h : f.Grows g) (hdir : f.entry? place = some .directory) :
    g.entry? place = some .directory := by
  rcases h place with hsame | ⟨-, hnew⟩
  · rw [hsame, hdir]
  · exact hnew

theorem grows_set_directory (h : files.entry? place = none) : files.Grows (files.set place .directory) := by
  intro q
  have hplace : place ≠ [] := ne_nil_of_absent h
  rw [entry?_set hplace]
  by_cases hq : q = place
  · subst hq
    exact .inr ⟨h, if_pos rfl⟩
  · exact .inl (if_neg hq)

/-- The place that a part of a path leads to. -/
def step (here : Place) (part : String) : Place := if part == ".." then here.dropLast else here ++ [part]

theorem makeDirectories_cons : files.makeDirectories here (part :: rest) =
    match files.entry? (step here part) with
    | some .directory => files.makeDirectories (step here part) rest
    | some (.file _) => .error (if rest.isEmpty then .exists else .notDirectory)
    | none => (files.set (step here part) .directory).makeDirectories (step here part) rest := rfl

/-- Each directory is there, or it is made before those below it. -/
theorem makeDirectories_step (h : files.makeDirectories here (part :: rest) = .ok made) :
    ∃ ready, (files.entry? (step here part) = some .directory ∧ ready = files ∨
        files.entry? (step here part) = none ∧ ready = files.set (step here part) .directory) ∧
      ready.makeDirectories (step here part) rest = .ok made := by
  rw [makeDirectories_cons] at h
  rcases he : files.entry? (step here part) with _ | (_ | content)
  all_goals rw [he] at h
  · exact ⟨_, .inr ⟨rfl, rfl⟩, h⟩
  · exact ⟨_, .inl ⟨rfl, rfl⟩, h⟩
  · cases h

theorem makeDirectories_grows (h : files.makeDirectories here parts = .ok made) : files.Grows made := by
  induction parts generalizing files here with
  | nil =>
    cases h
    exact .refl _
  | cons part rest ih =>
    obtain ⟨ready, ⟨-, rfl⟩ | ⟨hnone, rfl⟩, hrest⟩ := makeDirectories_step h
    · exact ih hrest
    · exact (grows_set_directory hnone).trans (ih hrest)

/-- After a step its directory is there, and it stays there. -/
theorem directory_of_makeDirectories (h : files.makeDirectories here (part :: rest) = .ok made) :
    made.entry? (step here part) = some .directory := by
  obtain ⟨ready, ⟨hthere, rfl⟩ | ⟨hnone, rfl⟩, hrest⟩ := makeDirectories_step h
  · exact (makeDirectories_grows hrest).directory hthere
  · exact (makeDirectories_grows hrest).directory (entry?_set_self (ne_nil_of_absent hnone) .directory)

/-- What was made need not be made again. -/
theorem makeDirectories_made (h : files.makeDirectories here parts = .ok made)
    (hg : ∀ place, made.entry? place = some .directory → g.entry? place = some .directory) :
    g.makeDirectories here parts = .ok g := by
  induction parts generalizing files here with
  | nil => rfl
  | cons part rest ih =>
    rw [makeDirectories_cons, hg _ (directory_of_makeDirectories h)]
    obtain ⟨ready, -, hrest⟩ := makeDirectories_step h
    exact ih hrest

theorem makeDirectories_alike (h : f.Alike g) (here : Place) (parts : List String) :
    (∃ e, f.makeDirectories here parts = .error e ∧ g.makeDirectories here parts = .error e) ∨
      ∃ f' g', f.makeDirectories here parts = .ok f' ∧ g.makeDirectories here parts = .ok g' ∧
        f'.Alike g' := by
  induction parts generalizing f g here with
  | nil => exact .inr ⟨f, g, rfl, rfl, h⟩
  | cons part rest ih =>
    rw [makeDirectories_cons, makeDirectories_cons, ← h]
    cases he : f.entry? (step here part) with
    | none =>
      have hplace : step here part ≠ [] := ne_nil_of_absent he
      refine ih (fun q => ?_) _
      rw [entry?_set hplace, entry?_set hplace, h]
    | some e =>
      cases e with
      | directory => exact ih h _
      | file content => exact .inl ⟨_, rfl, rfl⟩

theorem walk_cons : walk files here (part :: rest) =
    match files.entry? here with
    | none => .error .notFound
    | some (.file _) => .error .notDirectory
    | some .directory => walk files (step here part) rest := rfl

theorem walk_cons_eq_ok : walk files here (part :: rest) = .ok place ↔
    files.entry? here = some .directory ∧ walk files (step here part) rest = .ok place := by
  rw [walk_cons]
  rcases files.entry? here with _ | (_ | content) <;> simp

theorem walk_mono (h : ∀ place, f.entry? place = some .directory → g.entry? place = some .directory)
    (hwalk : f.walk here parts = .ok place) : g.walk here parts = .ok place := by
  induction parts generalizing here with
  | nil => exact hwalk
  | cons part rest ih =>
    obtain ⟨hhere, hrest⟩ := walk_cons_eq_ok.mp hwalk
    exact walk_cons_eq_ok.mpr ⟨h here hhere, ih hrest⟩

theorem walk_alike (h : f.Alike g) (here : Place) (parts : List String) :
    f.walk here parts = g.walk here parts := by
  induction parts generalizing here with
  | nil => rfl
  | cons part rest ih =>
    rw [walk_cons, walk_cons, ← h here]
    cases f.entry? here with
    | none => rfl
    | some e => cases e with
      | file content => rfl
      | directory => exact ih _

theorem find_alike (h : f.Alike g) (here : Place) (parts : List String) :
    f.find here parts = g.find here parts := by
  unfold find
  rw [walk_alike h]
  cases g.walk here parts with
  | error fault => rfl
  | ok place =>
    dsimp only
    rw [h place]

theorem walk_concat (parts : List String) (last : String) :
    walk files here (parts ++ [last]) = .ok place ↔
      ∃ above, walk files here parts = .ok above ∧ files.entry? above = some .directory ∧
        place = step above last := by
  induction parts generalizing here with
  | nil =>
    rw [List.nil_append, walk_cons_eq_ok]
    simp only [walk, Except.ok.injEq]
    constructor
    · exact fun ⟨hhere, hplace⟩ => ⟨here, rfl, hhere, hplace.symm⟩
    · rintro ⟨above, rfl, habove, rfl⟩
      exact ⟨habove, rfl⟩
  | cons part rest ih =>
    rw [List.cons_append, walk_cons_eq_ok, ih]
    constructor
    · exact fun ⟨hhere, above, hwalk, hlast⟩ => ⟨above, walk_cons_eq_ok.mpr ⟨hhere, hwalk⟩, hlast⟩
    · rintro ⟨above, hwalk, hlast⟩
      obtain ⟨hhere, hrest⟩ := walk_cons_eq_ok.mp hwalk
      exact ⟨hhere, above, hrest, hlast⟩

theorem write_ok {content : Content} (h : files.write here parts content = .ok made) :
    ∃ place, files.walk here parts = .ok place ∧ files.entry? place.dropLast = some .directory ∧
      files.entry? place ≠ some .directory ∧ made = files.set place (.file content) := by
  unfold write at h
  cases hwalk : files.walk here parts with
  | error e =>
    rw [hwalk] at h
    cases h
  | ok place =>
    rw [hwalk] at h
    dsimp only at h
    refine ⟨place, rfl, ?_⟩
    rcases habove : files.entry? place.dropLast with _ | (_ | above) <;>
      rcases hplace : files.entry? place with _ | (_ | c)
    all_goals
      rw [habove, hplace] at h
      cases h
    · exact ⟨rfl, by simp, rfl⟩
    · exact ⟨rfl, by simp, rfl⟩

theorem find_eq_ok : files.find here parts = .ok (place, e) ↔
    files.walk here parts = .ok place ∧ files.entry? place = some e := by
  unfold find
  cases files.walk here parts with
  | error fault => simp
  | ok there =>
    dsimp only
    cases hthere : files.entry? there with
    | none =>
      simp only [reduceCtorEq, Except.ok.injEq, false_iff, not_and]
      rintro rfl
      simp [hthere]
    | some e' =>
      simp only [Except.ok.injEq, Prod.mk.injEq]
      constructor
      · rintro ⟨rfl, rfl⟩
        exact ⟨rfl, hthere⟩
      · rintro ⟨rfl, he⟩
        exact ⟨rfl, Option.some.inj (hthere.symm.trans he)⟩

theorem write_eq (hwalk : files.walk here parts = .ok place)
    (habove : files.entry? place.dropLast = some .directory)
    (hfree : files.entry? place ≠ some .directory) (content : Content) :
    files.write here parts content = .ok (files.set place (.file content)) := by
  unfold write
  rw [hwalk]
  dsimp only
  rw [habove]
  rcases he : files.entry? place with _ | (_ | c)
  · rfl
  · exact absurd he hfree
  · rfl

/-- A file does not take the place of a directory. -/
theorem directory_set_file (hfree : files.entry? place ≠ some .directory) (content : Content)
    (hq : files.entry? q = some .directory) :
    Files.entry? (files.set place (.file content)) q = some .directory := by
  rw [entry?_set (ne_nil_of_free hfree), if_neg, hq]
  rintro rfl
  exact hfree hq

/-- The directories above every entry are there. -/
def Whole (files : Files) : Prop :=
  ∀ place, files.entry? place ≠ none → files.entry? place.dropLast = some .directory

theorem Whole.above (h : files.Whole) (hplace : files.entry? place ≠ none) (hq : q <+: place)
    (hne : q ≠ place) : files.entry? q = some .directory := by
  obtain ⟨more, rfl⟩ := hq
  -- upwards, from the entry to what is above it
  induction more using List.reverseRecOn with
  | nil => exact absurd (List.append_nil q).symm hne
  | append_singleton more last ih =>
    have hlast := h _ hplace
    rw [← List.append_assoc, List.dropLast_concat] at hlast
    by_cases hmore : more = []
    · subst hmore
      rwa [List.append_nil] at hlast
    · exact ih (by simp [hlast]) (by simpa using hmore)

section Straight

/-! A path without two points leads down only. -/

theorem step_of_ne (h : part ≠ "..") : step here part = here ++ [part] := if_neg (by simpa using h)

/-- The places below the first one on the way to the second. -/
def OnWay (here whole place : Place) : Prop := here <+: place ∧ place ≠ here ∧ place <+: whole

theorem not_onWay_self (here place : Place) : ¬OnWay here here place := by
  rintro ⟨hextends, hne, hextends'⟩
  exact hne (hextends'.eq_of_length_le hextends.length_le)

theorem onWay_cons (here rest : Place) (part : String) (place : Place) :
    OnWay here (here ++ part :: rest) place ↔
      place = here ++ [part] ∨ OnWay (here ++ [part]) (here ++ [part] ++ rest) place := by
  have hsplit : here ++ part :: rest = here ++ [part] ++ rest := by simp
  constructor
  · rintro ⟨⟨more, rfl⟩, hne, hwhole⟩
    have hmore : more <+: part :: rest := (List.prefix_append_right_inj here).mp hwhole
    cases more with
    | nil => simp at hne
    | cons first more =>
      obtain ⟨rfl, hmore⟩ := List.cons_prefix_cons.mp hmore
      by_cases hend : more = []
      · subst hend
        exact .inl rfl
      · refine .inr ⟨⟨more, by simp⟩, ?_, hsplit ▸ hwhole⟩
        intro hsame
        exact hend (by simpa using hsame)
  · rintro (rfl | ⟨hextends, hne, hwhole⟩)
    · exact ⟨List.prefix_append _ _, by simp, hsplit ▸ List.prefix_append _ _⟩
    · have hlonger := hextends.length_le
      refine ⟨(List.prefix_append _ _).trans hextends, ?_, hsplit ▸ hwhole⟩
      rintro rfl
      simp only [List.length_append, List.length_singleton] at hlonger
      omega

theorem entry?_makeDirectories (hstraight : ".." ∉ parts)
    (h : files.makeDirectories here parts = .ok made) (place : Place) :
    (OnWay here (here ++ parts) place → made.entry? place = some .directory) ∧
      (¬OnWay here (here ++ parts) place → made.entry? place = files.entry? place) := by
  induction parts generalizing files here with
  | nil =>
    cases h
    rw [List.append_nil]
    exact ⟨fun hway => absurd hway (not_onWay_self _ _), fun _ => rfl⟩
  | cons part rest ih =>
    have hpart : part ≠ ".." := fun h => hstraight (h ▸ List.mem_cons_self)
    have hrest : ".." ∉ rest := fun h => hstraight (List.mem_cons_of_mem _ h)
    rw [onWay_cons]
    have hmade := directory_of_makeDirectories h
    obtain ⟨ready, hready, hmore⟩ := makeDirectories_step h
    rw [step_of_ne hpart] at hmade hready hmore
    -- what the rest leaves alone is as the first step left it
    obtain ⟨hon, hoff⟩ := ih hrest hmore
    refine ⟨?_, fun hout => ?_⟩
    · rintro (rfl | hway)
      · exact hmade
      · exact hon hway
    · rw [not_or] at hout
      rw [hoff hout.2]
      rcases hready with ⟨-, rfl⟩ | ⟨hnone, rfl⟩
      · rfl
      · rw [entry?_set (ne_nil_of_absent hnone), if_neg hout.1]

theorem entry?_makeDirectories_beyond (hstraight : ".." ∉ parts)
    (h : files.makeDirectories here parts = .ok made) (last : String) :
    made.entry? (here ++ (parts ++ [last])) = files.entry? (here ++ (parts ++ [last])) := by
  refine (entry?_makeDirectories hstraight h _).2 fun hway => ?_
  have hlength := hway.2.2.length_le
  simp only [List.length_append, List.length_singleton] at hlength
  omega

/-- Directories can be made where no file is in the way. -/
theorem makeDirectories_ok (hstraight : ".." ∉ parts)
    (hclear : ∀ place content, OnWay here (here ++ parts) place →
      files.entry? place ≠ some (.file content)) :
    ∃ made, files.makeDirectories here parts = .ok made := by
  induction parts generalizing files here with
  | nil => exact ⟨files, rfl⟩
  | cons part rest ih =>
    have hpart : part ≠ ".." := fun h => hstraight (h ▸ List.mem_cons_self)
    have hrest : ".." ∉ rest := fun h => hstraight (List.mem_cons_of_mem _ h)
    rw [makeDirectories_cons, step_of_ne hpart]
    cases he : files.entry? (here ++ [part]) with
    | none =>
      refine ih hrest fun place content hway => ?_
      rw [entry?_set (ne_nil_of_absent he)]
      split
      · simp
      · exact hclear place content ((onWay_cons _ _ _ _).mpr (.inr hway))
    | some e =>
      cases e with
      | file content => exact absurd he (hclear _ content ((onWay_cons _ _ _ _).mpr (.inl rfl)))
      | directory =>
        exact ih hrest fun place content hway =>
          hclear place content ((onWay_cons _ _ _ _).mpr (.inr hway))

theorem walk_straight (hstraight : ".." ∉ parts) (h : files.walk here parts = .ok place) :
    place = here ++ parts := by
  induction parts generalizing here with
  | nil =>
    rw [List.append_nil]
    exact (Except.ok.inj h).symm
  | cons part rest ih =>
    have hpart : part ≠ ".." := fun h => hstraight (h ▸ List.mem_cons_self)
    obtain ⟨-, hrest⟩ := walk_cons_eq_ok.mp h
    rw [step_of_ne hpart] at hrest
    rw [ih (fun h => hstraight (List.mem_cons_of_mem _ h)) hrest, List.append_assoc, List.singleton_append]

/-- A walk down arrives where all that it passes is directories. -/
theorem walk_ok (hstraight : ".." ∉ parts)
    (hdirs : ∀ place, here <+: place → place <+: here ++ parts → place ≠ here ++ parts →
      files.entry? place = some .directory) : files.walk here parts = .ok (here ++ parts) := by
  induction parts generalizing here with
  | nil =>
    rw [List.append_nil]
    rfl
  | cons part rest ih =>
    have hpart : part ≠ ".." := fun h => hstraight (h ▸ List.mem_cons_self)
    have hsplit : here ++ part :: rest = here ++ [part] ++ rest := by simp
    rw [walk_cons, step_of_ne hpart,
      hdirs here (List.prefix_refl _) (List.prefix_append _ _) (by simp), hsplit]
    refine ih (fun h => hstraight (List.mem_cons_of_mem _ h)) fun place hextends hwhole hne => ?_
    exact hdirs place ((List.prefix_append _ _).trans hextends) (hsplit ▸ hwhole) (hsplit ▸ hne)

end Straight

end Files

variable {σ : Type}

open Run

/-- What is found at a path. -/
def World.at? (w : World σ) (p : Path) : Option Entry :=
  match w.files.find (startOf w p) p.parts with
  | .ok (_, e) => some e
  | .error _ => none

theorem World.at?_eq_some {w : World σ} {p : Path} {e : Entry} : w.at? p = some e ↔
    ∃ place, w.files.walk (startOf w p) p.parts = .ok place ∧ w.files.entry? place = some e := by
  unfold World.at?
  constructor
  · intro h
    rcases hfind : w.files.find (startOf w p) p.parts with fault | ⟨place, e'⟩
    · rw [hfind] at h
      cases h
    · rw [hfind] at h
      cases h
      exact ⟨place, Files.find_eq_ok.mp hfind⟩
  · rintro ⟨place, hplace⟩
    rw [Files.find_eq_ok.mpr hplace]

theorem World.at?_eq_none {w : World σ} {p : Path} : w.at? p = none ↔
    ∃ fault, w.files.find (startOf w p) p.parts = .error fault := by
  unfold World.at?
  rcases w.files.find (startOf w p) p.parts with fault | ⟨place, e⟩ <;> simp

theorem World.at?_of_walk {w : World σ} {p : Path} {place : Place}
    (h : w.files.walk (startOf w p) p.parts = .ok place) : w.at? p = w.files.entry? place := by
  unfold World.at? Files.find
  rw [h]
  dsimp only
  cases w.files.entry? place <;> rfl

/-- What a path that leads down finds is what is at its end. -/
theorem World.at?_straight {w : World σ} {p : Path} (hstraight : ".." ∉ p.parts)
    (hdirs : w.files.entry? (startOf w p ++ p.parts) ≠ none → ∀ q, startOf w p <+: q →
      q <+: startOf w p ++ p.parts → q ≠ startOf w p ++ p.parts → w.files.entry? q = some .directory) :
    w.at? p = w.files.entry? (startOf w p ++ p.parts) := by
  cases hentry : w.files.entry? (startOf w p ++ p.parts) with
  | some e =>
    rw [World.at?_of_walk (Files.walk_ok hstraight (hdirs (by simp [hentry]))), hentry]
  | none =>
    cases hat : w.at? p with
    | none => rfl
    | some e =>
      obtain ⟨place, hwalk, he⟩ := World.at?_eq_some.mp hat
      rw [Files.walk_straight hstraight hwalk, hentry] at he
      cases he

namespace Run

theorem changeFiles_apply (change : World σ → Except FileFault Files) (w : World σ) :
    changeFiles change w = match change w with
      | .ok files => (.ok (), { w with files := files })
      | .error e => (.error (.system (.file e)), w) := by
  unfold changeFiles
  rw [bind_of_ok (get_apply w)]
  cases change w <;> rfl

theorem findEntry_apply (p : Path) (w : World σ) :
    (findEntry p : Run σ _) w = (.ok (w.files.find (startOf w p) p.parts), w) := rfl

theorem pathExists_apply (p : Path) (w : World σ) :
    (pathExists p : Run σ Bool) w = (.ok (w.at? p).isSome, w) := by
  unfold pathExists World.at?
  rw [bind_of_ok (findEntry_apply p w)]
  rcases w.files.find (startOf w p) p.parts with fault | ⟨place, e⟩ <;> rfl

theorem readContent_of_file {p : Path} {w : World σ} {place : Place} {content : Content}
    (h : w.files.find (startOf w p) p.parts = .ok (place, .file content)) :
    (readContent p : Run σ Content) w = (.ok content, w) := by
  unfold readContent
  rw [bind_of_ok (findEntry_apply p w), h]
  rfl

theorem removeFile_of_file {p : Path} {w : World σ} {place : Place} {content : Content}
    (h : w.files.find (startOf w p) p.parts = .ok (place, .file content)) :
    (removeFile p : Run σ Unit) w = (.ok (), { w with files := w.files.erase place }) := by
  unfold removeFile
  rw [bind_of_ok (findEntry_apply p w), h]
  rfl

/-- Removing what is not there changes nothing. -/
theorem removeFile_of_absent {p : Path} {w : World σ} (h : w.at? p = none) :
    (removeFile p w).2 = w := by
  obtain ⟨fault, hfault⟩ := World.at?_eq_none.mp h
  unfold removeFile
  rw [bind_of_ok (findEntry_apply p w), hfault]
  cases fault <;> rfl

end Run

end ServerDeploy
