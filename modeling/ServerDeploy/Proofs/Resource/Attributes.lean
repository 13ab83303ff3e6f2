import ServerDeploy.Proofs.Resource.Outline

/-! The operation that adds a resource with its properties. A value is found at the end of the path
that its key names unless a later property writes over it, the operation has no members but those that
its keys name, and keys whose paths are apart may come in any order. A key with an empty part is
refused. -/

namespace ServerDeploy

namespace Operation

def keyPath (key : String) : List String := splitText ',' key

/-- A key that is not empty and has no empty part between its commas. -/
def ProperKey (key : String) : Prop := key ≠ "" ∧ ∀ part ∈ keyPath key, part ≠ ""

instance (key : String) : Decidable (ProperKey key) := inferInstanceAs (Decidable (_ ∧ _))

theorem propertyPath?_of_proper {key : String} (h : ProperKey key) :
    propertyPath? key = some (keyPath key) := by
  have hparts : (splitAtChar ',' key.toList).any List.isEmpty = false := by
    rw [List.any_eq_false]
    intro part hpart hempty
    refine h.2 (String.ofList part) (List.mem_map_of_mem hpart) ?_
    rw [List.isEmpty_iff.1 hempty]
  unfold propertyPath?
  dsimp only
  rw [hparts]
  rfl

theorem propertyPath?_of_not_proper {key : String} (h : ¬ProperKey key) :
    propertyPath? key = none := by
  have hparts : (splitAtChar ',' key.toList).any List.isEmpty = true := by
    by_contra hnone
    refine h ⟨?_, ?_⟩
    · rintro rfl
      exact hnone rfl
    · rintro part hpart rfl
      obtain ⟨cs, hcs, hempty⟩ := List.mem_map.1 hpart
      refine hnone (List.any_eq_true.2 ⟨cs, hcs, ?_⟩)
      simpa using hempty
  unfold propertyPath?
  dsimp only
  rw [hparts]
  rfl

theorem keyPath_ne_nil (key : String) : keyPath key ≠ [] := by
  simpa [keyPath, splitText] using splitAtChar_ne_nil ',' key.toList

/-- A property whose key can be used and whose value can be read. -/
structure Writable (property : String × RawValue) : Prop where
  key : ProperKey property.1
  value : ∃ value, meaning? property.2 = some value

/-- The path and the value that a property stands for. -/
def assignment (property : String × RawValue) : List String × Json :=
  (keyPath property.1, (meaning? property.2).getD .null)

def assign (op : Operation) (property : String × RawValue) : Operation :=
  setPath (assignment property).2 (assignment property).1 op

variable {properties others : List (String × RawValue)} {op : Operation}

theorem eq_of_meaning? {raw : RawValue} {value : Json} (h : meaning? raw = some value) :
    ∃ v, PropertyValue.ofRaw raw = .ok v ∧ v.resolve = .ok value := by
  unfold meaning? at h
  cases hv : PropertyValue.ofRaw raw with
  | error => simp [hv, Except.toOption] at h
  | ok v =>
    cases hvalue : v.resolve with
    | error => simp [hv, hvalue, Except.toOption] at h
    | ok written =>
      obtain rfl : written = value := by simpa [hv, hvalue, Except.toOption] using h
      exact ⟨v, rfl, hvalue⟩

theorem setProperty_of_writable {property : String × RawValue} (h : Writable property) :
    setProperty op property.1 property.2 = .ok (assign op property) := by
  obtain ⟨value, hvalue⟩ := h.value
  obtain ⟨v, hv, hresolve⟩ := eq_of_meaning? hvalue
  unfold setProperty assign assignment
  rw [propertyPath?_of_proper h.key]
  dsimp only
  rw [hv]
  dsimp only
  rw [hresolve, hvalue]
  rfl

theorem setProperties_of_writable (h : ∀ p ∈ properties, Writable p) :
    setProperties op properties = .ok (properties.foldl assign op) := by
  induction properties generalizing op with
  | nil => rfl
  | cons property rest ih =>
    obtain ⟨key, raw⟩ := property
    unfold setProperties
    rw [setProperty_of_writable (h (key, raw) List.mem_cons_self)]
    exact ih fun p hp => h p (List.mem_cons_of_mem _ hp)

theorem writable_of_setProperties {op' : Operation} (h : setProperties op properties = .ok op') :
    ∀ p ∈ properties, Writable p := by
  induction properties generalizing op with
  | nil => exact nofun
  | cons property rest ih =>
    obtain ⟨key, raw⟩ := property
    unfold setProperties at h
    split at h
    · cases h
    · next op₁ hset =>
      obtain ⟨path, value, hpath, hvalue, -⟩ := eq_of_setProperty hset
      have hkey : ProperKey key := by
        by_contra hkey
        rw [propertyPath?_of_not_proper hkey] at hpath
        cases hpath
      intro p hp
      rcases List.mem_cons.1 hp with rfl | hp
      · exact ⟨hkey, value, hvalue⟩
      · exact ih h p hp

/-- The first key with an empty part ends it, whatever the later ones are. -/
theorem setProperties_of_not_proper (hvalues : ∀ p ∈ properties, ∃ value, meaning? p.2 = some value)
    (h : ¬∀ p ∈ properties, ProperKey p.1) : ∃ before key raw after,
      properties = before ++ (key, raw) :: after ∧ (∀ p ∈ before, ProperKey p.1) ∧ ¬ProperKey key ∧
        setProperties op properties = .error (.deploy (.property key raw.display)) := by
  induction properties generalizing op with
  | nil => exact absurd nofun h
  | cons property rest ih =>
    obtain ⟨key, raw⟩ := property
    unfold setProperties
    by_cases hkey : ProperKey key
    · have hrest : ¬∀ p ∈ rest, ProperKey p.1 := fun hrest => h fun p hp => by
        rcases List.mem_cons.1 hp with rfl | hp
        · exact hkey
        · exact hrest p hp
      have hwritable : Writable (key, raw) := ⟨hkey, hvalues (key, raw) List.mem_cons_self⟩
      rw [setProperty_of_writable hwritable]
      obtain ⟨before, k, r, after, rfl, hbefore, hk, herror⟩ :=
        ih (fun p hp => hvalues p (List.mem_cons_of_mem _ hp)) hrest
      refine ⟨(key, raw) :: before, k, r, after, rfl, fun p hp => ?_, hk, herror⟩
      rcases List.mem_cons.1 hp with rfl | hp
      · exact hkey
      · exact hbefore p hp
    · refine ⟨[], key, raw, rest, rfl, nofun, hkey, ?_⟩
      unfold setProperty
      rw [propertyPath?_of_not_proper hkey]

/-- The key is neither that of the property, nor does one of the two lead through the other. -/
def KeysApart (p q : String × RawValue) : Prop := Apart (keyPath p.1) (keyPath q.1)

theorem along?_foldl_of_apart {path : List String}
    (h : ∀ p ∈ properties, Apart path (keyPath p.1)) :
    (Json.obj (properties.foldl assign op)).along? path = (Json.obj op).along? path := by
  induction properties generalizing op with
  | nil => rfl
  | cons property rest ih =>
    rw [List.foldl_cons, ih fun p hp => h p (List.mem_cons_of_mem _ hp)]
    exact along?_setPath_of_apart _ (h property List.mem_cons_self) op

theorem along?_foldl (property : String × RawValue) {before after : List (String × RawValue)}
    (h : ∀ p ∈ after, KeysApart property p) :
    (Json.obj ((before ++ property :: after).foldl assign op)).along? (keyPath property.1) =
      some (assignment property).2 := by
  rw [List.foldl_append, List.foldl_cons, along?_foldl_of_apart h]
  exact along?_setPath_self _ (keyPath_ne_nil property.1) _

theorem mem_foldl {m : String × Json} (h : m ∈ properties.foldl assign op) :
    m ∈ op ∨ ∃ p ∈ properties, (keyPath p.1).head? = some m.1 := by
  induction properties generalizing op with
  | nil => exact .inl h
  | cons property rest ih =>
    have hrest : m ∈ rest.foldl assign (assign op property) := h
    rcases ih hrest with hm | ⟨p, hp, hhead⟩
    · exact (mem_setPath _ hm).imp_right fun hhead => ⟨property, List.mem_cons_self, hhead⟩
    · exact .inr ⟨p, List.mem_cons_of_mem _ hp, hhead⟩

theorem foldl_alike {op' : Operation} (h : Json.Alike (.obj op) (.obj op')) :
    Json.Alike (.obj (properties.foldl assign op)) (.obj (properties.foldl assign op')) := by
  induction properties generalizing op op' with
  | nil => exact h
  | cons property rest ih => exact ih (alike_setPath _ _ h)

theorem foldl_perm_alike (h : properties.Perm others) :
    properties.Pairwise KeysApart → ∀ op : Operation,
      Json.Alike (.obj (properties.foldl assign op)) (.obj (others.foldl assign op)) := by
  induction h with
  | nil => exact fun _ op => .refl _
  | cons property _ ih => exact fun hapart op => ih (List.pairwise_cons.1 hapart).2 _
  | swap first second rest =>
    intro hapart op
    have hswap : KeysApart second first := (List.pairwise_cons.1 hapart).1 first List.mem_cons_self
    exact foldl_alike (setPath_comm _ _ hswap op)
  | trans hfirst _ ih ih' =>
    intro hapart op
    have hsecond := (hfirst.pairwise_iff fun h => Apart.symm h).1 hapart
    exact (ih hapart op).trans (ih' hsecond op)

/-- With keys that can be used, each value stands at the end of its path in the operation unless a later
property writes there, no member is there that is not the name, the address or named by a key, and
the order does not matter to keys that are apart. The first other key is refused. -/
theorem addWith_of_values (address : Address)
    (hvalues : ∀ p ∈ properties, ∃ value, meaning? p.2 = some value) :
    ((∀ p ∈ properties, ProperKey p.1) → ∃ op, addWith address properties = .ok op ∧
      (∀ before key raw after, properties = before ++ (key, raw) :: after →
        (∀ p ∈ after, Apart (keyPath key) (keyPath p.1)) →
          (Json.obj op).along? (keyPath key) = meaning? raw) ∧
      (∀ m ∈ op, m.1 = nameKey ∨ m.1 = addressKey ∨
        ∃ p ∈ properties, (keyPath p.1).head? = some m.1) ∧
      (properties.Pairwise (fun p q => Apart (keyPath p.1) (keyPath q.1)) →
        ∀ others, properties.Perm others →
          ∃ op', addWith address others = .ok op' ∧ Json.Alike (.obj op) (.obj op'))) ∧
    ((¬∀ p ∈ properties, ProperKey p.1) → ∃ before key raw after,
      properties = before ++ (key, raw) :: after ∧ (∀ p ∈ before, ProperKey p.1) ∧ ¬ProperKey key ∧
        addWith address properties = .error (.deploy (.property key raw.display))) := by
  refine ⟨fun hkeys => ?_, setProperties_of_not_proper hvalues⟩
  have hwritable : ∀ p ∈ properties, Writable p := fun p hp => ⟨hkeys p hp, hvalues p hp⟩
  refine ⟨_, setProperties_of_writable hwritable, ?_, fun m hm => ?_, fun hapart others hperm => ?_⟩
  · rintro before key raw after rfl hafter
    obtain ⟨value, hvalue⟩ := hvalues (key, raw) (by simp)
    rw [along?_foldl (key, raw) hafter, assignment, hvalue]
    rfl
  · rcases mem_foldl hm with hm | hm
    · have hadd : m = (nameKey, .str "add") ∨ m = (addressKey, address.model) := by
        simpa [add, make, Members.setAll] using hm
      rcases hadd with rfl | rfl
      · exact .inl rfl
      · exact .inr (.inl rfl)
    · exact .inr (.inr hm)
  · have hothers : ∀ p ∈ others, Writable p := fun p hp => hwritable p (hperm.mem_iff.2 hp)
    exact ⟨_, setProperties_of_writable hothers, foldl_perm_alike hperm hapart _⟩

/-- A store whose credential is written member by member, beside a typed value. -/
def credentialStore : List (String × RawValue) :=
  [("credential,alias", .value (.text "db")), ("credential,password", .value (.text "secret")),
    ("timeout", .value (.literal "30"))]

theorem values_credentialStore : ∀ p ∈ credentialStore, ∃ value, meaning? p.2 = some value := by
  have htimeout : TypedLiteral.parse "30" = .ok (.int 30) := by rfl
  simp [credentialStore, meaning?, PropertyValue.ofRaw, PropertyValue.resolve, htimeout,
    Except.toOption, Except.mapError]

def unnamedPart : List (String × RawValue) := [("credential,", .value (.text "db"))]

theorem addWith_credentialStore :
    (∃ op op', addWith .empty credentialStore = .ok op ∧
      addWith .empty credentialStore.reverse = .ok op' ∧ Json.Alike (.obj op) (.obj op') ∧
        (Json.obj op).along? ["credential", "alias"] = some (.str "db")) ∧
    ∃ fault, addWith .empty unnamedPart = .error fault := by
  have hproper : ∀ p ∈ credentialStore, ProperKey p.1 := by decide
  have hapart : credentialStore.Pairwise fun p q => Apart (keyPath p.1) (keyPath q.1) := by decide
  refine ⟨?_, ?_⟩
  · obtain ⟨op, hop, hreads, -, horder⟩ :=
      (addWith_of_values .empty values_credentialStore).1 hproper
    obtain ⟨op', hop', halike⟩ := horder hapart _ credentialStore.reverse_perm.symm
    exact ⟨op, op', hop, hop', halike,
      hreads [] "credential,alias" _ _ rfl (by decide)⟩
  · have hvalues : ∀ p ∈ unnamedPart, ∃ value, meaning? p.2 = some value := by
      simp [unnamedPart, meaning?, PropertyValue.ofRaw, PropertyValue.resolve, Except.toOption]
    obtain ⟨before, key, raw, after, -, -, -, herror⟩ :=
      (addWith_of_values .empty hvalues).2 (by decide)
    exact ⟨_, herror⟩

end Operation

end ServerDeploy
