import ServerDeploy.Proofs.Fault.Kinds
import ServerDeploy.Proofs.World.Tree
import ServerDeploy.Server.Distribution

/-! Unpacking an archive. Names are read twice: the check follows the points in them, and the unpacking
drops the points. An archive passes the check exactly when no name, followed from the target, ends
outside of it; all that is unpacked then stays inside. -/

namespace ServerDeploy

open Run

variable {σ : Type}

namespace Archive

variable {target here there : Place} {parts : List String} {name : String} {files made : Files}

/-- Following the parts of a name from a place: nothing and a single point stay, two points go up, and
from the root they stay there. -/
inductive Traces : Place → List String → Place → Prop
  | arrived {here : Place} : Traces here [] here
  | stay {here there : Place} {part : String} {rest : List String} (h : part = "" ∨ part = ".")
      (hrest : Traces here rest there) : Traces here (part :: rest) there
  | up {here there : Place} {rest : List String} (hrest : Traces here.dropLast rest there) :
      Traces here (".." :: rest) there
  | down {here there : Place} {part : String} {rest : List String} (h : part ∉ ["", ".", ".."])
      (hrest : Traces (here ++ [part]) rest there) : Traces here (part :: rest) there

/-- A name that ends outside of the target. From a slash on, names are followed from the root. -/
def Escapes (target : Place) (name : String) : Prop :=
  ∃ there, Traces (if name.toList.head? = some '/' then [] else target) (splitText '/' name) there ∧
    ¬target <+: there

def isVoid (part : String) : Bool := part == "" || part == "."

/-- Where the parts that count lead from a place on. -/
def resolveFrom (here : Place) (parts : List String) : Place :=
  (parts.filter fun part => !isVoid part).foldl Files.step here

theorem resolveFrom_void (here : Place) {part : String} (h : part = "" ∨ part = ".") (rest : List String) :
    resolveFrom here (part :: rest) = resolveFrom here rest := by
  unfold resolveFrom
  rw [List.filter_cons_of_neg (by rcases h with rfl | rfl <;> decide)]

theorem resolveFrom_step (here : Place) {part : String} (h : ¬(part = "" ∨ part = "."))
    (rest : List String) :
    resolveFrom here (part :: rest) = resolveFrom (Files.step here part) rest := by
  unfold resolveFrom
  rw [List.filter_cons_of_pos (by simpa [isVoid] using h)]
  rfl

theorem traces_resolveFrom (here : Place) (parts : List String) :
    Traces here parts (resolveFrom here parts) := by
  induction parts generalizing here with
  | nil => exact .arrived
  | cons part rest ih =>
    by_cases hvoid : part = "" ∨ part = "."
    · rw [resolveFrom_void here hvoid]
      exact .stay hvoid (ih here)
    · rw [resolveFrom_step here hvoid]
      by_cases hup : part = ".."
      · subst hup
        exact .up (ih _)
      · rw [Files.step_of_ne hup]
        refine .down ?_ (ih _)
        rw [not_or] at hvoid
        simp [hvoid, hup]

theorem Traces.eq (h : Traces here parts there) : there = resolveFrom here parts := by
  induction h with
  | arrived => rfl
  | stay h hrest ih => rw [resolveFrom_void _ h, ih]
  | up hrest ih =>
    rw [resolveFrom_step _ (by decide), ih]
    rfl
  | down h hrest ih =>
    simp only [List.mem_cons, List.not_mem_nil, or_false, not_or] at h
    rw [resolveFrom_step _ (by simp [h]), Files.step_of_ne h.2.2, ih]

theorem foldl_step_straight (here : Place) (hparts : ".." ∉ parts) :
    parts.foldl Files.step here = here ++ parts := by
  induction parts generalizing here with
  | nil => exact (List.append_nil here).symm
  | cons part rest ih =>
    have hpart : part ≠ ".." := fun h => hparts (h ▸ List.mem_cons_self)
    rw [List.foldl_cons, Files.step_of_ne hpart, ih _ fun h => hparts (List.mem_cons_of_mem _ h)]
    simp

theorem not_mem_resolveParts (parts : List String) : ".." ∉ Path.resolveParts parts := by
  have kept (here : Place) (hhere : ".." ∉ here) : ".." ∉ parts.foldl Files.step here := by
    induction parts generalizing here with
    | nil => exact hhere
    | cons part rest ih =>
      refine ih _ fun hmem => ?_
      unfold Files.step at hmem
      split at hmem
      · exact hhere (List.dropLast_subset _ hmem)
      · next hpart => simp [hhere, Ne.symm (by simpa using hpart : part ≠ "..")] at hmem
  exact kept [] List.not_mem_nil

theorem parts_ofText (s : String) :
    (Path.ofText s).parts = (splitText '/' s).filter fun part => !isVoid part := by
  have hvoid (part : List Char) : isVoid (String.ofList part) = Path.isVoid part := by
    have hempty : (String.ofList part == "") = part.isEmpty := by
      rw [Bool.eq_iff_iff, beq_iff_eq, List.isEmpty_iff, ← String.toList_inj, String.toList_ofList]
      rfl
    have hpoint : (String.ofList part == ".") = (part == ['.']) := by
      rw [Bool.eq_iff_iff, beq_iff_eq, beq_iff_eq, ← String.toList_inj, String.toList_ofList]
      rfl
    unfold isVoid Path.isVoid
    rw [hempty, hpoint]
  unfold Path.ofText splitText
  rw [List.filter_map]
  simp only [Function.comp_def, hvoid]

theorem isAbsolute_ofText (s : String) :
    (Path.ofText s).isAbsolute = true ↔ s.toList.head? = some '/' := by
  unfold Path.ofText Path.isAbsolute
  generalize s.toList = cs
  cases cs with
  | nil => simp [Path.rootOf]
  | cons c cs =>
    by_cases hslash : c = '/'
    · subst hslash
      unfold Path.rootOf
      split <;> simp_all
    · unfold Path.rootOf
      split <;> simp_all

/-- The check reads a name as following it does. -/
theorem claimedPlace_eq (htarget : ".." ∉ target) (name : String) : claimedPlace target name =
    resolveFrom (if name.toList.head? = some '/' then [] else target) (splitText '/' name) := by
  have hplace : claimedPlace target name =
      (Path.join ⟨"/", target⟩ (.ofText name)).parts.foldl Files.step [] := rfl
  rw [hplace]
  unfold Path.join
  by_cases hroot : name.toList.head? = some '/'
  · rw [if_pos ((isAbsolute_ofText name).mpr hroot), if_pos hroot, parts_ofText]
    rfl
  · rw [if_neg (mt (isAbsolute_ofText name).mp hroot), if_neg hroot, List.foldl_append,
      foldl_step_straight [] htarget, parts_ofText]
    rfl

theorem escapes_iff (htarget : ".." ∉ target) :
    Escapes target name ↔ ¬target <+: claimedPlace target name := by
  rw [claimedPlace_eq htarget]
  constructor
  · rintro ⟨there, htraces, hout⟩
    rwa [htraces.eq] at hout
  · exact fun hout => ⟨_, traces_resolveFrom _ _, hout⟩

/-- Outside of the target nothing is different but for directories made on the way to it. -/
def Contained (target : Place) (f g : Files) : Prop :=
  ∀ q, ¬target <+: q → g.entry? q = f.entry? q ∨
    q <+: target ∧ f.entry? q = none ∧ g.entry? q = some .directory

theorem contained_refl (target : Place) (f : Files) : Contained target f f := fun _ _ => .inl rfl

theorem Contained.trans {f g k : Files} (h : Contained target f g) (h' : Contained target g k) :
    Contained target f k := by
  intro q hq
  rcases h' q hq with hsame | ⟨hway, hnone, hnew⟩
  · rw [hsame]
    exact h q hq
  · rcases h q hq with hsame | ⟨-, -, hthere⟩
    · exact .inr ⟨hway, hsame.symm.trans hnone, hnew⟩
    · rw [hnone] at hthere
      cases hthere

theorem contained_set {place : Place} (hinside : target <+: place) (hplace : place ≠ []) (e : Entry) :
    Contained target files (files.set place e) := by
  intro q hq
  rw [Files.entry?_set hplace]
  refine .inl (if_neg ?_)
  rintro rfl
  exact hq hinside

theorem contained_makeDirectories {place : Place} (hstraight : ".." ∉ place)
    (hcomparable : place <+: target ∨ target <+: place)
    (h : files.makeDirectories [] place = .ok made) : Contained target files made := by
  intro q hq
  obtain ⟨-, hoff⟩ := Files.entry?_makeDirectories hstraight h q
  -- a directory is made only on the way, and outside of the target that is the way to the target
  by_cases hway : Files.OnWay [] ([] ++ place) q
  · have hextends : q <+: place := hway.2.2
    have htarget : q <+: target := by
      rcases hcomparable with hle | hle
      · exact hextends.trans hle
      · exact (List.prefix_or_prefix_of_prefix hextends hle).resolve_right hq
    rcases Files.makeDirectories_grows h q with hsame | hnew
    · exact .inl hsame
    · exact .inr ⟨htarget, hnew⟩
  · exact .inl (hoff hway)

theorem not_mem_entryParts (name : String) : ".." ∉ entryParts name := by
  intro hmem
  simpa using (List.mem_filter.mp hmem).2

theorem contained_write {place : Place} {content : Content} (hstraight : ".." ∉ place)
    (hinside : target <+: place) (h : files.write [] place content = .ok made) :
    Contained target files made := by
  obtain ⟨there, hwalk, -, hfree, rfl⟩ := Files.write_ok h
  obtain rfl : there = place := Files.walk_straight hstraight hwalk
  exact contained_set hinside (Files.ne_nil_of_free hfree) _

/-- What an entry comes to once the directory above its place is there. -/
def putEntry (place : Place) (entry : String × String) (files : Files) : Except FileFault Files :=
  if isFolderName entry.1 then
    match files.entry? place.dropLast, files.entry? place with
    | _, some .directory => .ok files
    | _, some (.file _) => .error .exists
    | some (.file _), none => .error .notDirectory
    | _, none => .ok (files.set place .directory)
  else files.write [] place (.text entry.2)

theorem unpackEntry_cases {entry : String × String} (h : unpackEntry target files entry = .ok made) :
    ∃ f, (f = files ∨ files.makeDirectories [] (target ++ entryParts entry.1).dropLast = .ok f) ∧
      putEntry (target ++ entryParts entry.1) entry f = .ok made := by
  unfold unpackEntry at h
  dsimp only at h
  cases habove : files.entry? (target ++ entryParts entry.1).dropLast with
  | some e =>
    rw [habove] at h
    exact ⟨files, .inl rfl, h⟩
  | none =>
    rw [habove] at h
    obtain ⟨f, hmade, hput⟩ := eq_ok_of_bind h
    exact ⟨f, .inr hmade, hput⟩

theorem putEntry_contained {place : Place} {entry : String × String} (hstraight : ".." ∉ place)
    (hinside : target <+: place) (h : putEntry place entry files = .ok made) :
    Contained target files made := by
  unfold putEntry at h
  split at h
  · split at h
    · cases h
      exact contained_refl target _
    · cases h
    · cases h
    · next hnone _ =>
      cases h
      exact contained_set hinside (Files.ne_nil_of_absent hnone) _
  · exact contained_write hstraight hinside h

theorem unpackEntry_contained {entry : String × String} (htarget : ".." ∉ target)
    (h : unpackEntry target files entry = .ok made) : Contained target files made := by
  have hinside : target <+: target ++ entryParts entry.1 := List.prefix_append _ _
  have hstraight : ".." ∉ target ++ entryParts entry.1 := by
    simp [htarget, not_mem_entryParts]
  obtain ⟨f, habove, hput⟩ := unpackEntry_cases h
  generalize target ++ entryParts entry.1 = place at *
  refine Contained.trans ?_ (putEntry_contained hstraight hinside hput)
  rcases habove with rfl | hmade
  · exact contained_refl target _
  · have hbefore : ".." ∉ place.dropLast := fun hmem => hstraight (List.dropLast_subset _ hmem)
    exact contained_makeDirectories hbefore
      (List.prefix_or_prefix_of_prefix (List.dropLast_prefix place) hinside) hmade

theorem unpackEntries_contained (htarget : ".." ∉ target) (entries : List (String × String))
    (w : World σ) : ∃ files, (unpackEntries target entries w).2 = { w with files := files } ∧
      Contained target w.files files ∧
      ∀ e, (unpackEntries target entries w).1 = .error e → ∃ problem, e = .system (.file problem) := by
  induction entries generalizing w with
  | nil => exact ⟨w.files, rfl, contained_refl target _, nofun⟩
  | cons entry rest ih =>
    rw [unpackEntries, bind_apply, changeFiles_apply]
    cases hentry : unpackEntry target w.files entry with
    | error problem =>
      exact ⟨w.files, rfl, contained_refl target _, fun e he => ⟨problem, (Except.error.inj he).symm⟩⟩
    | ok files =>
      obtain ⟨files', hworld, hcontained, herror⟩ := ih { w with files := files }
      exact ⟨files', hworld, (unpackEntry_contained htarget hentry).trans hcontained, herror⟩

theorem escaping?_isSome_iff (htarget : ".." ∉ target) (entries : List (String × String)) :
    (escaping? target entries).isSome = true ↔ ∃ entry ∈ entries, Escapes target entry.1 := by
  have outside (name : String) :
      (!target.isPrefixOf (claimedPlace target name)) = true ↔ Escapes target name := by
    rw [escapes_iff htarget, ← List.isPrefixOf_iff_prefix, Bool.not_eq_true', Bool.not_eq_true]
  unfold escaping?
  rw [List.find?_isSome]
  constructor
  · rintro ⟨name, hname, hout⟩
    obtain ⟨entry, hmem, rfl⟩ := List.mem_map.mp hname
    exact ⟨entry, hmem, (outside _).mp hout⟩
  · rintro ⟨entry, hmem, hout⟩
    exact ⟨entry.1, List.mem_map_of_mem hmem, (outside _).mpr hout⟩

theorem extract_apply {archive target : Path} {w : World σ} {entries : List (String × String)}
    (hread : (readContent archive w).1 = .ok (.archive entries)) :
    extract archive target w = match escaping? (Path.place w.directory target) entries with
      | some name => (.error (.configuration
          (.escapingEntry name (Path.text ⟨"/", Path.place w.directory target⟩))), w)
      | none => unpackEntries (Path.place w.directory target) entries w := by
  have hstill := still_readContent archive w
  have hcontent : readContent archive w = (.ok (.archive entries), w) := Prod.ext hread hstill
  unfold extract
  rw [bind_of_ok (get_apply w), bind_of_ok hcontent]
  dsimp only
  cases escaping? (Path.place w.directory target) entries <;> rfl

/-- An archive is refused exactly when one of its names ends outside of the target, and nothing has been
written then. However the unpacking of another one ends, it has changed nothing but files, and none of
them outside of the target; what is new there is directories on the way to it. -/
theorem extract_contained {archive target : Path} {w : World σ} {entries : List (String × String)}
    (hread : (readContent archive w).1 = .ok (.archive entries)) :
    ((∃ problem, (extract archive target w).1 = .error (.configuration problem)) ↔
        ∃ entry ∈ entries, Escapes (Path.place w.directory target) entry.1) ∧
      ((∃ entry ∈ entries, Escapes (Path.place w.directory target) entry.1) →
        (extract archive target w).2 = w) ∧
      (extract archive target w).2 = { w with files := (extract archive target w).2.files } ∧
      Contained (Path.place w.directory target) w.files (extract archive target w).2.files := by
  have htarget : ".." ∉ Path.place w.directory target := not_mem_resolveParts _
  rw [extract_apply hread, ← escaping?_isSome_iff htarget]
  cases escaping? (Path.place w.directory target) entries with
  | some name => exact ⟨⟨fun _ => rfl, fun _ => ⟨_, rfl⟩⟩, fun _ => rfl, rfl, contained_refl _ _⟩
  | none =>
    obtain ⟨files, hworld, hcontained, herror⟩ := unpackEntries_contained htarget entries w
    dsimp only
    rw [hworld]
    refine ⟨⟨fun ⟨problem, hproblem⟩ => ?_, nofun⟩, nofun, rfl, hcontained⟩
    obtain ⟨fault, hfault⟩ := herror _ hproblem
    cases hfault

/-- An archive of which the second name leads out of the target again. -/
def climbing : World Unit :=
  { World.quiet () (.ofText "/work") (.ofText "/home") with
    files := ⟨[(["work"], .directory),
      (["work", "a.zip"], .file (.archive [("a/b", "1"), ("a/../../b", "2")]))]⟩ }

theorem extract_contained_climbing :
    (extract (.ofText "a.zip") (.ofText "run") climbing).2 = climbing ∧
      ∃ problem, (extract (.ofText "a.zip") (.ofText "run") climbing).1 = .error (.configuration problem) := by
  have hplace : Path.place climbing.directory (.ofText "run") = ["work", "run"] := by decide
  have hescapes : ∃ entry ∈ [("a/b", "1"), ("a/../../b", "2")],
      Escapes (Path.place climbing.directory (.ofText "run")) entry.1 := by
    refine ⟨("a/../../b", "2"), by simp, ?_⟩
    rw [hplace, escapes_iff (by decide)]
    decide
  have hread : (readContent (.ofText "a.zip") climbing).1 =
      .ok (.archive [("a/b", "1"), ("a/../../b", "2")]) := rfl
  obtain ⟨hraises, hkept, -, -⟩ := @extract_contained _ _ (.ofText "run") _ _ hread
  exact ⟨hkept hescapes, hraises.mpr hescapes⟩

end Archive

end ServerDeploy
