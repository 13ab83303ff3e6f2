import ServerDeploy.Proofs.Fault.Kinds
import ServerDeploy.Proofs.Resource.Options

/-! Reading a resource: what the entries of its mapping say, and its children after that. The bound on
the nesting does not matter once it is large enough, and an entry under which no option is looked up
changes nothing or ends the reading, wherever in the tree it is added. -/

namespace ServerDeploy

theorem Document.depth_pos (d : Document) : 0 < d.depth := by
  cases d <;> simp [depth]

theorem Document.depth_le_of_mem {items : List Document} {d : Document} (h : d ∈ items) :
    d.depth ≤ depthOfItems items := by
  induction items with
  | nil => cases h
  | cons first rest ih =>
    rw [depthOfItems]
    rcases List.mem_cons.1 h with rfl | h
    · exact Nat.le_max_left _ _
    · exact Nat.le_trans (ih h) (Nat.le_max_right _ _)

theorem Document.depth_le_of_entry {entries : Entries} {e : Scalar × Document} (h : e ∈ entries) :
    e.2.depth ≤ depthOfEntries entries := by
  induction entries with
  | nil => cases h
  | cons first rest ih =>
    rw [depthOfEntries]
    rcases List.mem_cons.1 h with rfl | h
    · exact Nat.le_max_left _ _
    · exact Nat.le_trans (ih h) (Nat.le_max_right _ _)

namespace Resource

variable {n m : Nat} {entries : Entries} {r : Resource} {rs : List Resource} {ds : List Document}

def withChildren (r : Resource) (children : List Resource) : Resource :=
  .mk r.address r.properties r.enable r.addIfAbsent children r.beforeAdd r.afterAdd

/-- What the entries of a mapping say of a resource, and the documents that its children are read
from. -/
structure Reads (entries : Entries) (r : Resource) (ds : List Document) : Prop where
  known : ∀ e ∈ entries, Known e.1
  heading : ∃ own properties, readAddress entries = .ok own ∧ addressOrNone own = r.address ∧
    readPropertyOption own entries = .ok properties ∧ readProperties own properties = .ok r.properties
  children : ∀ own, readChildrenOption own entries = .ok ds
  enable : switch "enable-resource" entries = r.enable
  addIfAbsent : switch "add-if-absent" entries = r.addIfAbsent
  beforeAdd : readHookOption "before-add" entries = .ok r.beforeAdd
  afterAdd : readHookOption "after-add" entries = .ok r.afterAdd

theorem readChildrenOption_list (h : (entries.get? (.text "resources")).getD .null = .list ds)
    (own : Option String) : readChildrenOption own entries = .ok ds := by
  unfold readChildrenOption
  rw [h]
  cases ds <;> rfl

/-- Children are found whatever the address, which is there for the complaint only. -/
theorem readChildrenOption_ok {own : Option String} (h : readChildrenOption own entries = .ok ds)
    (own' : Option String) : readChildrenOption own' entries = .ok ds := by
  unfold readChildrenOption at h ⊢
  generalize (Entries.get? (.text "resources") entries).getD .null = d at h ⊢
  dsimp only at h ⊢
  split
  · next hnothing => rwa [if_pos hnothing] at h
  · next hsomething =>
    rw [if_neg hsomething] at h
    cases d with
    | list items => exact h
    | scalar s => cases h
    | map entries => cases h

theorem read_map (h : Reads entries r ds) (n : Nat) :
    read (n + 1) (.map entries) = (readList n ds).map r.withChildren := by
  obtain ⟨own, properties, hown, haddress, hproperties, hread⟩ := h.heading
  unfold read
  simp only [unknownOptions_eq_nil_iff.2 h.known, hown, hproperties, h.children, hread, h.enable,
    h.addIfAbsent, h.beforeAdd, h.afterAdd, haddress, bind, Except.bind]
  cases readList n ds <;> rfl

theorem reads_of_read (h : read (n + 1) (.map entries) = .ok r) :
    ∃ ds, Reads entries r ds ∧ readList n ds = .ok r.children := by
  unfold read at h
  obtain ⟨unknown, hunknown, h⟩ := eq_ok_of_bind h
  dsimp only at h
  split at h
  · cases h
  · next hnone =>
    obtain rfl : unknown = [] := by simpa using hnone
    obtain ⟨own, hown, h⟩ := eq_ok_of_bind h
    obtain ⟨properties, hproperties, h⟩ := eq_ok_of_bind h
    obtain ⟨ds, hds, h⟩ := eq_ok_of_bind h
    obtain ⟨ps, hps, h⟩ := eq_ok_of_bind h
    obtain ⟨children, hchildren, h⟩ := eq_ok_of_bind h
    obtain ⟨before, hbefore, h⟩ := eq_ok_of_bind h
    obtain ⟨after, hafter, h⟩ := eq_ok_of_bind h
    cases h
    refine ⟨ds, ⟨unknownOptions_eq_nil_iff.1 hunknown, ⟨own, properties, hown, rfl, hproperties, hps⟩,
      readChildrenOption_ok hds, rfl, rfl, hbefore, hafter⟩, hchildren⟩

theorem map_of_read {d : Document} (h : read n d = .ok r) :
    ∃ m entries, n = m + 1 ∧ d = .map entries := by
  unfold read at h
  cases n with
  | zero => cases h
  | succ m =>
    cases d with
    | map entries => exact ⟨m, entries, rfl, rfl⟩
    | scalar s =>
      obtain ⟨shown, -, h⟩ := eq_ok_of_bind h
      cases h
    | list items =>
      obtain ⟨shown, -, h⟩ := eq_ok_of_bind h
      cases h

theorem children_cases {own : Option String} (h : readChildrenOption own entries = .ok ds) :
    ds = [] ∨ entries.get? (.text "resources") = some (.list ds) := by
  unfold readChildrenOption at h
  cases hget : entries.get? (.text "resources") with
  | none =>
    rw [hget] at h
    cases h
    exact .inl rfl
  | some d =>
    rw [hget, Option.getD_some] at h
    dsimp only at h
    split at h
    · cases h
      exact .inl rfl
    · cases d with
      | list items =>
        cases h
        exact .inr rfl
      | scalar s => cases h
      | map entries => cases h

theorem depth_children {own : Option String} {d : Document}
    (h : readChildrenOption own entries = .ok ds) (hd : d ∈ ds) :
    d.depth < (Document.map entries).depth := by
  rcases children_cases h with rfl | hget
  · cases hd
  · have hin := Document.depth_le_of_mem hd
    have hbelow := Document.depth_le_of_entry (Entries.mem_of_get? hget)
    simp only [Document.depth] at hbelow ⊢
    omega

theorem readList_congr (h : ∀ d ∈ ds, read n d = read m d) : readList n ds = readList m ds := by
  induction ds with
  | nil => simp only [readList]
  | cons d rest ih =>
    rw [readList, readList, h d List.mem_cons_self, ih fun d hd => h d (.tail _ hd)]

/-- One bound on the nesting that is large enough is as good as another. -/
theorem read_bound {d : Document} (hn : d.depth ≤ n) (hm : d.depth ≤ m) : read n d = read m d := by
  have hpos := d.depth_pos
  induction n generalizing m d with
  | zero => omega
  | succ n ih =>
    obtain ⟨m, rfl⟩ : ∃ k, m = k + 1 := ⟨m - 1, by omega⟩
    cases d with
    | scalar s => simp only [read]
    | list items => simp only [read]
    | map entries =>
      unfold read
      refine bind_congr fun unknown => ?_
      dsimp only
      split
      · rfl
      refine bind_congr fun own => bind_congr fun properties => bind_congr_ok fun ds hds => ?_
      have hbelow : readList n ds = readList m ds := readList_congr fun d hd =>
        have hdepth := depth_children hds hd
        ih (by omega) (by omega) d.depth_pos
      rw [hbelow]

theorem parse_list (h : (Document.list ds).depth ≤ n) : parse (.list ds) = readList n ds :=
  readList_congr fun d hd => by
    have hdepth := Document.depth_le_of_mem hd
    rw [Document.depth] at h ⊢
    exact read_bound (by omega) (by omega)

/-- A configuration holds documents of resources: it is a list of them, or a mapping with one. -/
inductive Holds (ds : List Document) : Document → Prop where
  | list : Holds ds (.list ds)
  | map {entries : Entries} (h : entries.get? (.text "resources") = some (.list ds)) :
    Holds ds (.map entries)

theorem Holds.parse {d : Document} (h : Holds ds d) : parse d = parse (.list ds) := by
  cases h with
  | list => rfl
  | map hget =>
    unfold Resource.parse
    simp only [hget, Option.getD_some]

/-- An entry is added to the mapping of a resource or to that of one below it. -/
inductive Extended (e : Scalar × Document) : Document → Document → Prop where
  | here (before after : Entries) :
    Extended e (.map (before ++ after)) (.map (before ++ e :: after))
  | child (before after : Entries) (left right : List Document) {d d' : Document}
      (hfirst : before.get? (.text "resources") = none) (h : Extended e d d') :
    Extended e (.map (before ++ (.text "resources", .list (left ++ d :: right)) :: after))
      (.map (before ++ (.text "resources", .list (left ++ d' :: right)) :: after))

/-- An entry is added to one of the resources of a configuration or below it. -/
inductive ExtendedWithin (e : Scalar × Document) : Document → Document → Prop where
  | list (left right : List Document) {d d' : Document} (h : Extended e d d') :
    ExtendedWithin e (.list (left ++ d :: right)) (.list (left ++ d' :: right))
  | map (before after : Entries) (left right : List Document) {d d' : Document}
      (hfirst : before.get? (.text "resources") = none) (h : Extended e d d') :
    ExtendedWithin e (.map (before ++ (.text "resources", .list (left ++ d :: right)) :: after))
      (.map (before ++ (.text "resources", .list (left ++ d' :: right)) :: after))

/-- A key under which no option is looked up, and the fault that comes of it: none if it only mixes
the spellings of an option that there is. -/
inductive Stray : Scalar → Option Fault → Prop where
  | unread {k : String} (hk : hyphenated k ∈ optionNames)
      (hnone : ∀ name ∈ optionNames, ¬Under name (.text k)) : Stray (.text k) none
  | unknown {k : String} (hk : hyphenated k ∉ optionNames) :
    Stray (.text k) (some (.configuration (.unknownOptions [hyphenated k])))
  | odd {key : Scalar} (hkey : ∀ s, key ≠ .text s) : Stray key (some .shape)

/-- A result, unless there is a fault. -/
def resultUnless {α : Type} (fault : Option Fault) (v : α) : Except Fault α :=
  match fault with
  | none => .ok v
  | some f => .error f

variable {fault : Option Fault}

theorem Stray.not_under {key : Scalar} (h : Stray key fault) {name : String}
    (hname : name ∈ optionNames) : ¬Under name key := by
  intro hunder
  obtain ⟨s, rfl, hs⟩ := hunder.known hname
  cases h with
  | unread hk hnone => exact hnone name hname hunder
  | unknown hk => exact hk hs
  | odd hkey => exact hkey s rfl

theorem Stray.known {key : Scalar} (h : Stray key none) : Known key := by
  cases h with
  | unread hk hnone => exact ⟨_, rfl, hk⟩

theorem Stray.read {key : Scalar} {f : Fault} (h : Stray key (some f)) (d : Document)
    {before after : Entries} (hknown : ∀ e ∈ before ++ after, Known e.1) (n : Nat) :
    read (n + 1) (.map (before ++ (key, d) :: after)) = .error f := by
  obtain ⟨hbefore, hafter⟩ := List.forall_mem_append.1 hknown
  unfold Resource.read
  simp only [unknownOptions_append hbefore]
  cases h with
  | unknown hk =>
    rw [unknownOptions_text, unknownOptions_eq_nil_iff.2 hafter]
    simp [Except.map, hk, bind, Except.bind, throw, throwThe, MonadExceptOf.throw]
  | odd hkey =>
    cases key with
    | text s => exact absurd rfl (hkey s)
    | _ => rfl

/-- What is read depends on the look-ups alone. -/
theorem Reads.congr {entries' : Entries} {ds' : List Document} (h : Reads entries r ds)
    (hknown : ∀ e ∈ entries', Known e.1)
    (hsame : ∀ name ∈ optionNames, name ≠ "resources" → option? name entries' = option? name entries)
    (hchildren : ∀ own, readChildrenOption own entries' = .ok ds') : Reads entries' r ds' where
  known := hknown
  heading := by
    have haddress := hsame "address" (by decide) (by decide)
    have hproperties := hsame "properties" (by decide) (by decide)
    rw [option?_of_word (by decide), option?_of_word (by decide)] at haddress hproperties
    have hheading := h.heading
    unfold readAddress readPropertyOption at hheading ⊢
    rwa [haddress, hproperties]
  children := hchildren
  enable := by
    rw [← h.enable]
    unfold switch
    rw [hsame _ (by decide) (by decide)]
  addIfAbsent := by
    rw [← h.addIfAbsent]
    unfold switch
    rw [hsame _ (by decide) (by decide)]
  beforeAdd := by
    rw [← h.beforeAdd]
    unfold readHookOption
    rw [hsame _ (by decide) (by decide)]
  afterAdd := by
    rw [← h.afterAdd]
    unfold readHookOption
    rw [hsame _ (by decide) (by decide)]

theorem known_middle {before after : Entries} {e : Scalar × Document} :
    (∀ e' ∈ before ++ e :: after, Known e'.1) ↔ Known e.1 ∧ ∀ e' ∈ before ++ after, Known e'.1 := by
  rw [List.forall_mem_append, List.forall_mem_append, List.forall_mem_cons, and_left_comm]

theorem Reads.insert {before after : Entries} {e : Scalar × Document}
    (h : Reads (before ++ after) r ds) (hstray : Stray e.1 none) :
    Reads (before ++ e :: after) r ds := by
  refine h.congr (known_middle.2 ⟨hstray.known, h.known⟩)
    (fun name hname _ => option?_insert (hstray.not_under hname) _ _) fun own => ?_
  have hchildren := h.children own
  unfold readChildrenOption at hchildren ⊢
  rwa [Entries.get?_insert fun hkey => hstray.not_under (by decide) (.inl hkey)]

theorem Reads.replace {before after : Entries} {items : List Document}
    (h : Reads (before ++ (.text "resources", .list items) :: after) r ds)
    (hfirst : before.get? (.text "resources") = none) :
    ds = items ∧ ∀ items', Reads (before ++ (.text "resources", .list items') :: after) r items' := by
  have held (items : List Document) := readChildrenOption_list
    (congrArg (Option.getD · .null) (Entries.get?_middle hfirst (.list items) after))
  refine ⟨Except.ok.inj ((h.children none).symm.trans (held items none)), fun items' => ?_⟩
  have hname : Known (.text "resources") := ⟨_, rfl, by decide⟩
  have apart : ∀ name ∈ optionNames, name ≠ "resources" → ¬Under name (.text "resources") := by decide
  refine h.congr (known_middle.2 ⟨hname, (known_middle.1 h.known).2⟩) (fun name hname hother => ?_)
    (held items')
  rw [option?_insert (apart name hname hother), option?_insert (apart name hname hother)]

theorem readList_middle {left right : List Document} {d : Document}
    (h : readList n (left ++ d :: right) = .ok rs) :
    ∃ r, read n d = .ok r ∧ ∀ d' fault, read n d' = resultUnless fault r →
      readList n (left ++ d' :: right) = resultUnless fault rs := by
  induction left generalizing rs with
  | nil =>
    rw [List.nil_append, readList] at h
    obtain ⟨r, hr, h⟩ := eq_ok_of_bind h
    obtain ⟨rest, hrest, h⟩ := eq_ok_of_bind h
    cases h
    refine ⟨r, hr, fun d' fault hd' => ?_⟩
    rw [List.nil_append, readList, hd', hrest]
    cases fault <;> rfl
  | cons first left ih =>
    rw [List.cons_append, readList] at h
    obtain ⟨r₀, hfirst, h⟩ := eq_ok_of_bind h
    obtain ⟨rest, hrest, h⟩ := eq_ok_of_bind h
    cases h
    obtain ⟨r, hr, hall⟩ := ih hrest
    refine ⟨r, hr, fun d' fault hd' => ?_⟩
    rw [List.cons_append, readList, hfirst, hall d' fault hd']
    cases fault <;> rfl

theorem withChildren_children (r : Resource) : r.withChildren r.children = r := by
  cases r
  rfl

/-- Wherever in a resource that can be read an entry is added under which no option is looked up, it
is passed over or ends the reading. -/
theorem read_extended {e : Scalar × Document} {d d' : Document} (h : Extended e d d')
    (hstray : Stray e.1 fault) (hread : read n d = .ok r) : read n d' = resultUnless fault r := by
  induction h generalizing n r with
  | here before after =>
    obtain ⟨n, entries, rfl, -⟩ := map_of_read hread
    obtain ⟨ds, hreads, hbelow⟩ := reads_of_read hread
    cases fault with
    | none =>
      rw [read_map (hreads.insert hstray), hbelow]
      exact congrArg Except.ok r.withChildren_children
    | some f => exact hstray.read e.2 hreads.known n
  | child before after left right hfirst h ih =>
    obtain ⟨n, entries, rfl, -⟩ := map_of_read hread
    obtain ⟨ds, hreads, hbelow⟩ := reads_of_read hread
    obtain ⟨rfl, hreplace⟩ := hreads.replace hfirst
    obtain ⟨inner, hinner, hall⟩ := readList_middle hbelow
    -- the entries of the parent say what they did, so it fares like the list of its children
    rw [read_map (hreplace _), hall _ fault (ih hinner)]
    cases fault with
    | none => exact congrArg Except.ok r.withChildren_children
    | some f => rfl

theorem parse_extended {e : Scalar × Document} {d d' : Document} (h : ExtendedWithin e d d')
    (hstray : Stray e.1 fault) (hparse : parse d = .ok rs) : parse d' = resultUnless fault rs := by
  have inList {left right : List Document} {d d' : Document} (h : Extended e d d')
      (hparse : parse (.list (left ++ d :: right)) = .ok rs) :
      parse (.list (left ++ d' :: right)) = resultUnless fault rs := by
    rw [parse_list (Nat.le_max_left _ (Document.list (left ++ d' :: right)).depth)] at hparse
    rw [parse_list (Nat.le_max_right _ _)]
    obtain ⟨r, hr, hall⟩ := readList_middle hparse
    exact hall d' fault (read_extended h hstray hr)
  cases h with
  | list left right h => exact inList h hparse
  | map before after left right hfirst h =>
    have held (items : List Document) := Holds.map (Entries.get?_middle hfirst (.list items) after)
    rw [(held _).parse] at hparse ⊢
    exact inList h hparse

end Resource

end ServerDeploy
