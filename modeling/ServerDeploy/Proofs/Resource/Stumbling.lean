import ServerDeploy.Proofs.Resource.Reading

/-! What the reading of a configuration can end in. Whatever the values are, it gives resources or an
error for the operator, except that it stumbles over a key that is no text among the options of a
resource, and over integers that are too long to be shown. -/

namespace ServerDeploy

theorem Document.oversize_of_item {items : List Document} {d : Document} (h : d ∈ items)
    (hd : d.hasOversizeInteger = true) : anyOversize items = true := by
  induction items with
  | nil => cases h
  | cons first rest ih =>
    rw [anyOversize, Bool.or_eq_true]
    rcases List.mem_cons.1 h with rfl | h
    · exact .inl hd
    · exact .inr (ih h)

theorem Document.oversize_of_entry {entries : Entries} {e : Scalar × Document} (h : e ∈ entries)
    (he : e.1.isOversizeInteger = true ∨ e.2.hasOversizeInteger = true) :
    anyEntryOversize entries = true := by
  induction entries with
  | nil => cases h
  | cons first rest ih =>
    rw [anyEntryOversize, Bool.or_eq_true, Bool.or_eq_true]
    rcases List.mem_cons.1 h with rfl | h
    · exact .inl he
    · exact .inr (ih h)

theorem Entries.oversize_of_get? {s : String} {entries : Entries} {d : Document}
    (hget : (entries.get? (.text s)).getD .null = d) (hd : d.hasOversizeInteger = true) :
    Document.anyEntryOversize entries = true := by
  cases hentry : entries.get? (.text s) with
  | none =>
    rw [hentry] at hget
    subst hget
    cases hd
  | some d' =>
    rw [hentry, Option.getD_some] at hget
    subst hget
    exact Document.oversize_of_entry (mem_of_get? hentry) (.inr hd)

namespace Resource

/-- A key that is no text stands among the options of a resource or of one below it. -/
inductive OddKey : Document → Prop where
  | here {entries : Entries} {e : Scalar × Document} (he : e ∈ entries)
      (hkey : ∀ s, e.1 ≠ .text s) : OddKey (.map entries)
  | child {entries : Entries} {ds : List Document} {d : Document}
      (hds : entries.get? (.text "resources") = some (.list ds)) (hd : d ∈ ds) (h : OddKey d) :
      OddKey (.map entries)

/-- An error about the configuration, or one of two others where there is reason for it. -/
def Explained (odd oversize : Prop) (f : Fault) : Prop :=
  (∃ problem, f = .configuration problem) ∨ odd ∧ f = .shape ∨ oversize ∧ f = .oversizeWriting

theorem Explained.mono {odd odd' oversize oversize' : Prop} (hodd : odd → odd')
    (hoversize : oversize → oversize') {f : Fault} (h : Explained odd oversize f) :
    Explained odd' oversize' f :=
  h.imp_right (Or.imp (And.imp_left hodd) (And.imp_left hoversize))

theorem Explained.plain {odd oversize : Prop} {f : Fault} (h : Explained odd oversize f) :
    f.Plain := by
  rcases h with ⟨problem, rfl⟩ | ⟨-, rfl⟩ | ⟨-, rfl⟩ <;> trivial

variable {odd oversize : Prop} {n : Nat} {entries : Entries} {ds : List Document}

theorem explained_refused {α : Type} (problem : ConfigurationProblem) :
    Fails (Explained odd oversize) (.error (.configuration problem) : Except Fault α) :=
  fails_error (.inl ⟨problem, rfl⟩)

theorem explained_shown {d : Document} (h : d.hasOversizeInteger = true → oversize) :
    Fails (Explained odd oversize) (shown d) := by
  unfold shown
  split
  · next hd => exact fails_error (.inr (.inr ⟨h hd, rfl⟩))
  · exact fails_ok _

theorem explained_named {d : Document} (h : d.hasOversizeInteger = true → oversize) :
    Fails (Explained odd oversize) (named d) := by
  unfold named
  split
  · next hd => exact fails_error (.inr (.inr ⟨h hd, rfl⟩))
  · exact fails_ok _

theorem explained_refuse {α : Type} {d : Document} (h : d.hasOversizeInteger = true → oversize)
    (problem : String → ConfigurationProblem) :
    Fails (Explained odd oversize) (refuse d problem : Except Fault α) :=
  (explained_shown h).bind fun _ => explained_refused _

theorem explained_unknownOptions (h : ∀ e ∈ entries, (∀ s, e.1 ≠ .text s) → odd) :
    Fails (Explained odd oversize) (unknownOptions entries) := by
  induction entries with
  | nil => exact fails_ok _
  | cons e rest ih =>
    obtain ⟨key, d⟩ := e
    cases key with
    | text k =>
      rw [unknownOptions_text]
      exact (ih fun e he => h e (.tail _ he)).map _
    | _ => exact fails_error (.inr (.inl ⟨h _ List.mem_cons_self nofun, rfl⟩))

theorem explained_readAddress (h : Document.anyEntryOversize entries = true → oversize) :
    Fails (Explained odd oversize) (readAddress entries) := by
  unfold readAddress
  split
  · exact fails_ok _
  · exact fails_ok _
  · exact explained_refuse (fun hd => h (Entries.oversize_of_get? rfl hd)) _

theorem explained_readPropertyOption (own : Option String) (entries : Entries) :
    Fails (Explained odd oversize) (readPropertyOption own entries) := by
  unfold readPropertyOption
  dsimp only
  split
  · exact fails_ok _
  · split
    · exact fails_ok _
    · exact explained_refused _

theorem oversize_of_properties {own : Option String} {properties : Entries}
    (h : readPropertyOption own entries = .ok properties)
    (hp : Document.anyEntryOversize properties = true) :
    Document.anyEntryOversize entries = true := by
  unfold readPropertyOption at h
  dsimp only at h
  split at h
  · cases h
    cases hp
  · split at h
    · next hmap =>
      cases h
      exact Entries.oversize_of_get? hmap hp
    · cases h

theorem explained_readChildrenOption (own : Option String) (entries : Entries) :
    Fails (Explained odd oversize) (readChildrenOption own entries) := by
  unfold readChildrenOption
  dsimp only
  split
  · exact fails_ok _
  · split
    · exact fails_ok _
    · exact explained_refused _

theorem explained_readProperties (own : Option String)
    (h : Document.anyEntryOversize entries = true → oversize) :
    Fails (Explained odd oversize) (readProperties own entries) := by
  induction entries with
  | nil => exact fails_ok _
  | cons e rest ih =>
    have one : Fails (Explained odd oversize) (readProperty own e.1 e.2) := by
      refine (explained_named fun hkey => ?_).bind fun name => ?_
      · exact h (Document.oversize_of_entry List.mem_cons_self (.inl hkey))
      · split
        · exact fails_ok _
        · refine explained_refuse (fun hvalue => ?_) _
          exact h (Document.oversize_of_entry List.mem_cons_self (.inr hvalue))
    have others := ih fun hrest => h (by rw [Document.anyEntryOversize, hrest, Bool.or_true])
    exact one.bind fun p => others.bind fun ps => fails_ok _

theorem explained_commandTexts (h : Document.anyOversize ds = true → oversize) :
    Fails (Explained odd oversize) (commandTexts ds) := by
  induction ds with
  | nil => exact fails_ok _
  | cons d rest ih =>
    have one : Fails (Explained odd oversize) (named d) :=
      explained_named fun hd => h (Document.oversize_of_item List.mem_cons_self hd)
    have others := ih fun hrest => h (by rw [Document.anyOversize, hrest, Bool.or_true])
    exact one.bind fun _ => others.bind fun _ => fails_ok _

theorem explained_readHook {d : Document} (h : d.hasOversizeInteger = true → oversize) :
    Fails (Explained odd oversize) (readHook d) := by
  unfold readHook
  split
  · exact fails_ok _
  · exact (explained_commandTexts h).map _
  · next entries =>
    dsimp only
    split
    · exact fails_ok _
    · split
      · next items hitems =>
        exact (explained_commandTexts fun hd => h (Entries.oversize_of_get? hitems hd)).map _
      · exact explained_refused _
  · exact explained_refuse h _

theorem explained_readHookOption (name : String)
    (h : Document.anyEntryOversize entries = true → oversize) :
    Fails (Explained odd oversize) (readHookOption name entries) := by
  refine explained_readHook fun hd => h ?_
  rw [option?_eq] at hd
  cases hget : entries.get? (.text name) with
  | some d =>
    rw [hget] at hd
    exact Entries.oversize_of_get? (congrArg (Option.getD · .null) hget) hd
  | none =>
    rw [hget] at hd
    exact Entries.oversize_of_get? rfl hd

theorem explained_readList (h : ∀ d ∈ ds, Fails (Explained odd oversize) (read n d)) :
    Fails (Explained odd oversize) (readList n ds) := by
  induction ds with
  | nil =>
    rw [readList]
    exact fails_ok _
  | cons d rest ih =>
    rw [readList]
    exact (h d List.mem_cons_self).bind fun _ =>
      (ih fun d hd => h d (.tail _ hd)).bind fun _ => fails_ok _

theorem explained_read {d : Document} (hn : d.depth ≤ n) :
    Fails (Explained (OddKey d) (d.hasOversizeInteger = true)) (read n d) := by
  induction n generalizing d with
  | zero =>
    have hpos := d.depth_pos
    omega
  | succ n ih =>
    unfold read
    cases d with
    | scalar s => exact explained_refuse id _
    | list items => exact explained_refuse id _
    | map entries =>
      refine (explained_unknownOptions fun e he hkey => .here he hkey).bind fun unknown => ?_
      dsimp only
      split
      · exact explained_refused _
      refine (explained_readAddress id).bind fun own => ?_
      refine (explained_readPropertyOption own entries).bind_ok fun properties hproperties => ?_
      refine (explained_readChildrenOption own entries).bind_ok fun ds hds => ?_
      refine (explained_readProperties own (oversize_of_properties hproperties)).bind fun ps => ?_
      have hchildren : ∀ d ∈ ds, Fails (Explained (OddKey (.map entries))
          ((Document.map entries).hasOversizeInteger = true)) (read n d) := by
        intro d hd fault hfault
        have hdepth := depth_children hds hd
        have hget : Entries.get? (.text "resources") entries = some (.list ds) :=
          (children_cases hds).resolve_left (List.ne_nil_of_mem hd)
        refine (ih (by omega) fault hfault).mono (.child hget hd) fun hoversize => ?_
        exact Document.oversize_of_entry (Entries.mem_of_get? hget)
          (.inr (Document.oversize_of_item hd hoversize))
      refine (explained_readList hchildren).bind fun children => ?_
      exact (explained_readHookOption _ id).bind fun _ =>
        (explained_readHookOption _ id).bind fun _ => fails_ok _

/-- A key that is no text stands among the options of a resource in a configuration. -/
def HoldsOddKey (d : Document) : Prop := ∃ ds, Holds ds d ∧ ∃ item ∈ ds, OddKey item

theorem Holds.oversize_of_held {d : Document} (h : Holds ds d) (hds : Document.anyOversize ds = true) :
    d.hasOversizeInteger = true := by
  cases h with
  | list => exact hds
  | map hget => exact Document.oversize_of_entry (Entries.mem_of_get? hget) (.inr hds)

theorem explained_held {d : Document} (h : Holds ds d) :
    Fails (Explained (HoldsOddKey d) (d.hasOversizeInteger = true)) (parse d) := by
  rw [h.parse]
  refine explained_readList fun item hitem fault hfault => ?_
  have hdepth := Nat.le_succ_of_le (Document.depth_le_of_mem hitem)
  refine (explained_read hdepth fault hfault).mono (fun hodd => ⟨ds, h, item, hitem, hodd⟩) fun hbig => ?_
  exact h.oversize_of_held (Document.oversize_of_item hitem hbig)

theorem explained_parse (d : Document) :
    Fails (Explained (HoldsOddKey d) (d.hasOversizeInteger = true)) (parse d) := by
  cases d with
  | scalar s => exact explained_refused _
  | list items => exact explained_held .list
  | map entries =>
    cases hget : Entries.get? (.text "resources") entries with
    | none =>
      have hnothing : parse (.map entries) = .ok [] := by
        simp only [parse, hget, Option.getD_none, readList]
      rw [hnothing]
      exact fails_ok _
    | some d =>
      cases d with
      | list ds => exact explained_held (.map hget)
      | _ =>
        unfold parse
        simp only [hget, Option.getD_some]
        exact explained_refused _

/-- Reading any configuration gives resources or an error about the configuration, unless a key that is
no text stands among the options of a resource, or an integer in it is too long to be shown. Such a key
is enough: what could be read cannot once it is added to any of the resources. -/
theorem parse_outcome (d : Document) :
    ((∃ rs, parse d = .ok rs) ∨ (∃ problem, parse d = .error (.configuration problem)) ∨
      HoldsOddKey d ∧ parse d = .error .shape ∨
      d.hasOversizeInteger = true ∧ parse d = .error .oversizeWriting) ∧
    ∀ rs e d', parse d = .ok rs → ExtendedWithin e d d' → (∀ s, e.1 ≠ .text s) →
      parse d' = .error .shape := by
  refine ⟨?_, fun rs e d' hparse hextended hkey => parse_extended hextended (.odd hkey) hparse⟩
  cases hparse : parse d with
  | ok rs => exact .inl ⟨rs, rfl⟩
  | error fault =>
    refine .inr ?_
    rcases explained_parse d fault hparse with ⟨problem, rfl⟩ | ⟨hodd, rfl⟩ | ⟨hbig, rfl⟩
    · exact .inl ⟨problem, rfl⟩
    · exact .inr (.inl ⟨hodd, rfl⟩)
    · exact .inr (.inr ⟨hbig, rfl⟩)

/-- A number among the options of a resource that can be read without it. -/
theorem parse_outcome_numbered :
    parse (.list [.map []]) = .ok [.mk none [] false false [] none none] ∧
      parse (.list [.map [(.int 1, .scalar (.int 2))]]) = .error .shape := by
  have hreads : Reads [] (.mk none [] false false [] none none) [] :=
    ⟨fun e he => absurd he List.not_mem_nil, ⟨none, [], rfl, rfl, rfl, rfl⟩, fun _ => rfl, rfl, rfl,
      rfl, rfl⟩
  have hodd : ∀ s, Scalar.int 1 ≠ .text s := by
    intro s h
    cases h
  have hplain : parse (.list [.map []]) = .ok [.mk none [] false false [] none none] := by
    rw [parse_list (by decide : (Document.list [.map []]).depth ≤ 2), readList, read_map hreads,
      readList, readList]
    rfl
  exact ⟨hplain, (parse_outcome (.list [.map []])).2 _ _ _ hplain
    (.list [] [] (.here [] [])) hodd⟩

end Resource

end ServerDeploy
