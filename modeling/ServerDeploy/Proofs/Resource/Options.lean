import ServerDeploy.Resource.Descriptor

/-! The options of a resource and their spellings. An option is looked up under its name with hyphens,
then under the one with low lines in their place. Whether a name is known is decided by its hyphenated
form alone. -/

namespace ServerDeploy

theorem Scalar.sameKey_text (key : Scalar) (s : String) :
    key.sameKey (.text s) = decide (key = .text s) := by
  cases key with
  | text t => simp [sameKey, asInt?, Bool.beq_eq_decide_eq]
  | _ => simp [sameKey, asInt?]

namespace Entries

theorem get?_text_cons (s : String) (e : Scalar × Document) (rest : Entries) :
    get? (.text s) (e :: rest) = if e.1 = .text s then some e.2 else get? (.text s) rest := by
  simp [get?, Scalar.sameKey_text]

theorem get?_append (key : Scalar) (before after : Entries) :
    get? key (before ++ after) = (get? key before).or (get? key after) := by
  induction before with
  | nil => rfl
  | cons e rest ih =>
    simp only [List.cons_append, get?]
    split
    · rfl
    · exact ih

/-- A look-up does not see an entry that has another key. -/
theorem get?_insert {s : String} {e : Scalar × Document} (h : e.1 ≠ .text s)
    (before after : Entries) :
    get? (.text s) (before ++ e :: after) = get? (.text s) (before ++ after) := by
  rw [get?_append, get?_append, get?_text_cons, if_neg h]

theorem get?_eq_none {s : String} {entries : Entries} (h : ∀ e ∈ entries, e.1 ≠ .text s) :
    get? (.text s) entries = none := by
  induction entries with
  | nil => rfl
  | cons e rest ih =>
    rw [get?_text_cons, if_neg (h e List.mem_cons_self)]
    exact ih fun e he => h e (.tail _ he)

theorem get?_middle {s : String} {before : Entries} (h : get? (.text s) before = none)
    (d : Document) (after : Entries) :
    get? (.text s) (before ++ (.text s, d) :: after) = some d := by
  rw [get?_append, h, get?_text_cons, if_pos rfl]
  rfl

theorem get?_of_mem {s : String} {entries : Entries} {d : Document}
    (hdistinct : entries.Pairwise fun e f => e.1 ≠ f.1) (h : (.text s, d) ∈ entries) :
    get? (.text s) entries = some d := by
  obtain ⟨before, after, rfl⟩ := List.append_of_mem h
  refine get?_middle (get?_eq_none fun e he => ?_) d after
  exact (List.pairwise_append.1 hdistinct).2.2 e he _ List.mem_cons_self

theorem mem_of_get? {s : String} {entries : Entries} {d : Document}
    (h : get? (.text s) entries = some d) : (.text s, d) ∈ entries := by
  induction entries with
  | nil => cases h
  | cons e rest ih =>
    rw [get?_text_cons] at h
    split at h
    · next hkey =>
      cases h
      exact hkey ▸ List.mem_cons_self
    · exact .tail _ (ih h)

end Entries

namespace Resource

/-- A key is one of the spellings under which an option is looked up. -/
def Under (name : String) (key : Scalar) : Prop :=
  key = .text name ∨ key = .text (underscored name)

instance (name : String) (key : Scalar) : Decidable (Under name key) :=
  inferInstanceAs (Decidable (_ ∨ _))

def Gives (name : String) (d : Document) (entries : Entries) : Prop :=
  ∃ e ∈ entries, Under name e.1 ∧ e.2 = d

def Omits (name : String) (entries : Entries) : Prop := ∀ e ∈ entries, ¬Under name e.1

instance (name : String) (entries : Entries) : Decidable (Omits name entries) :=
  inferInstanceAs (Decidable (∀ e ∈ entries, _))

/-- A name that is not complained about. -/
def Known (key : Scalar) : Prop := ∃ s, key = .text s ∧ hyphenated s ∈ optionNames

/-- Entries that are options, each given in one spelling. -/
structure Options (entries : Entries) : Prop where
  known : ∀ e ∈ entries, ∃ name ∈ optionNames, Under name e.1
  once : entries.Pairwise fun e f => ∀ name ∈ optionNames, Under name e.1 → ¬Under name f.1

theorem Under.known {name : String} {key : Scalar} (hname : name ∈ optionNames)
    (h : Under name key) : Known key := by
  have hyphens : ∀ name ∈ optionNames,
      hyphenated name = name ∧ hyphenated (underscored name) = name := by decide
  rcases h with rfl | rfl
  · exact ⟨_, rfl, (hyphens name hname).1.symm ▸ hname⟩
  · exact ⟨_, rfl, (hyphens name hname).2.symm ▸ hname⟩

theorem option?_eq (name : String) (entries : Entries) :
    option? name entries =
      (entries.get? (.text name)).or (entries.get? (.text (underscored name))) := by
  unfold option?
  cases entries.get? (.text name) <;> rfl

theorem option?_of_word {name : String} (h : underscored name = name) (entries : Entries) :
    option? name entries = entries.get? (.text name) := by
  rw [option?_eq, h, Option.or_self]

theorem Omits.option? {name : String} {entries : Entries} (h : Omits name entries) :
    option? name entries = none := by
  rw [option?_eq, Entries.get?_eq_none fun e he hkey => h e he (.inl hkey),
    Entries.get?_eq_none fun e he hkey => h e he (.inr hkey)]
  rfl

theorem Options.option? {name : String} {d : Document} {entries : Entries} (h : Options entries)
    (hname : name ∈ optionNames) (hd : Gives name d entries) : option? name entries = some d := by
  obtain ⟨⟨key, d⟩, he, hkey, rfl⟩ := hd
  obtain ⟨before, after, rfl⟩ := List.append_of_mem he
  obtain ⟨-, hrest, hbetween⟩ := List.pairwise_append.1 h.once
  have hbefore : Omits name before := fun e he hunder =>
    hbetween e he _ List.mem_cons_self name hname hunder hkey
  have hafter : Omits name after := fun e he => (List.pairwise_cons.1 hrest).1 e he name hname hkey
  rw [option?_eq]
  rcases hkey with rfl | rfl
  · rw [Entries.get?_middle (Entries.get?_eq_none fun e he h => hbefore e he (.inl h))]
    rfl
  · rw [Entries.get?_middle (Entries.get?_eq_none fun e he h => hbefore e he (.inr h))]
    -- the hyphenated name is not there at all, unless it is the same
    by_cases hsame : underscored name = name
    · rw [hsame, Entries.get?_middle (Entries.get?_eq_none fun e he h => hbefore e he (.inl h))]
      rfl
    · rw [Entries.get?_insert (by simpa using hsame),
        Entries.get?_eq_none fun e he h => ?_]
      · rfl
      · rcases List.mem_append.1 he with he | he
        · exact hbefore e he (.inl h)
        · exact hafter e he (.inl h)

theorem option?_insert {name : String} {e : Scalar × Document} (h : ¬Under name e.1)
    (before after : Entries) :
    option? name (before ++ e :: after) = option? name (before ++ after) := by
  rw [option?_eq, option?_eq, Entries.get?_insert fun hkey => h (.inl hkey),
    Entries.get?_insert fun hkey => h (.inr hkey)]

theorem unknownOptions_text (k : String) (d : Document) (rest : Entries) :
    unknownOptions ((.text k, d) :: rest) = (unknownOptions rest).map fun others =>
      if optionNames.contains (hyphenated k) || others.contains (hyphenated k) then others
      else hyphenated k :: others := by
  rw [unknownOptions]
  cases unknownOptions rest with
  | error e => rfl
  | ok others =>
    simp only [Except.map, bind, Except.bind]
    split <;> rfl

/-- Names that are known add nothing to what is complained about. -/
theorem unknownOptions_append {before : Entries} (h : ∀ e ∈ before, Known e.1) (after : Entries) :
    unknownOptions (before ++ after) = unknownOptions after := by
  induction before with
  | nil => rfl
  | cons e rest ih =>
    obtain ⟨key, d⟩ := e
    obtain ⟨k, rfl, hk⟩ := h _ List.mem_cons_self
    rw [List.cons_append, unknownOptions_text, ih fun e he => h e (.tail _ he),
      List.contains_iff_mem.2 hk]
    cases unknownOptions after <;> rfl

theorem unknownOptions_eq_nil_iff {entries : Entries} :
    unknownOptions entries = .ok [] ↔ ∀ e ∈ entries, Known e.1 := by
  refine ⟨fun h => ?_, fun h => ?_⟩
  · induction entries with
    | nil => exact nofun
    | cons e rest ih =>
      obtain ⟨key, d⟩ := e
      cases key with
      | text k =>
        rw [unknownOptions_text] at h
        cases hrest : unknownOptions rest with
        | error fault => rw [hrest] at h; cases h
        | ok others =>
          rw [hrest] at h
          have hnames := Except.ok.inj h
          dsimp only at hnames
          split at hnames
          · next hk =>
            subst hnames
            have hk : hyphenated k ∈ optionNames := by simpa using hk
            exact List.forall_mem_cons.2 ⟨⟨k, rfl, hk⟩, ih hrest⟩
          · cases hnames
      | _ => cases h
  · have hall := unknownOptions_append h []
    rwa [List.append_nil] at hall

end Resource

end ServerDeploy
