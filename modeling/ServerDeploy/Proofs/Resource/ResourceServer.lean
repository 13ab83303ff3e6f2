import ServerDeploy.Proofs.Resource.Composing
import ServerDeploy.Proofs.Resource.ResourceTree
import ServerDeploy.Proofs.Session.CompositeRun

/-! A standalone server that keeps a tree of resources. What its operations do at and below a place is
confined to it: the tree without the place stays as it was. A resource that is read lists its
attributes and its children by type. -/

namespace ServerDeploy

open ManagementServer

/-- A server of resources. What is uploaded becomes known by a digest. -/
structure ResourceServer where
  tree : ResourceTree
  digest : String → Content → String
  /-- What the server says of an operation that succeeded in a composite, besides its result. -/
  remarks : Operation → Members
  isGuarded : Bool

namespace ResourceServer

def segmentOf? : Json → Option (String × String)
  | .obj [(key, .str value)] => some (key, value)
  | _ => none

def place? (op : Operation) : Option Segments :=
  match op.get? Operation.addressKey with
  | some (.arr nodes) => nodes.mapM segmentOf?
  | _ => none

/-- The attributes that an operation adds a resource with: its parameters, and for a deployment that
it is not enabled unless they say so. -/
def attributesIn (key : Segments) (op : Operation) : Members :=
  let parameters : Members := op.filter fun m => m.1 != Operation.nameKey && m.1 != Operation.addressKey
  let isDeployment := key.head?.any fun (kind, _) => kind == Operation.deploymentKey
  if isDeployment && (parameters.get? "enabled").isNone then
    Members.set "enabled" (.bool false) parameters
  else parameters

/-- The tree after an operation, if it can be executed. -/
def change? (t : ResourceTree) (op : Operation) : Option ResourceTree :=
  match op.get? Operation.nameKey, place? op with
  | some (.str kind), some key =>
    match kind with
    | "add" => t.add key (attributesIn key op)
    | "remove" => t.remove key
    | "enable" => t.update key fun attributes => Members.set "enabled" (.bool true) attributes
    | _ => none
  | _, _ => none

/-- Lists a child under its type. An attribute with the name of the type that is no object stays. -/
def withChild (model : Members) (child : String × String) : Members :=
  match model.get? child.1 with
  | none => model.set child.1 (.obj [(child.2, .null)])
  | some (.obj names) => model.set child.1 (.obj (Members.set child.2 .null names))
  | some _ => model

/-- A resource as it is read without its descendants: its attributes, and its children by type. -/
def modelAt (t : ResourceTree) (key : Segments) : Members :=
  (t.childrenOf key).foldl withChild (t.attributesOf key)

def read? (t : ResourceTree) (op : Operation) : Option Outcome :=
  match op.get? Operation.nameKey, place? op with
  | some (.str "read-resource"), some key =>
    some (if t.Has key then succeeded (.obj (modelAt t key))
      else failed (.str "The resource is not found"))
  | _, _ => none

def execute (s : ResourceServer) (op : Operation) : Outcome × ResourceServer :=
  match read? s.tree op with
  | some r => (r, s)
  | none =>
    match change? s.tree op with
    | some t => (succeeded .null, { s with tree := t })
    | none => (failed (.str "The operation cannot be executed"), s)

instance : ManagementServer ResourceServer where
  isGuarded s := s.isGuarded
  step := execute
  headers s op := s.remarks op
  receive s name content := (succeeded (.obj [("BYTES_VALUE", .str (s.digest name content))]), s)

@[simp] theorem mapM_segmentOf? (segments : Segments) :
    (segments.map fun (k, v) => Json.obj [(k, .str v)]).mapM segmentOf? = some segments := by
  induction segments with
  | nil => rfl
  | cons segment segments ih =>
    rw [List.map_cons, List.mapM_cons, ih]
    rfl

theorem place?_of_model {op : Operation} {segments : Segments}
    (h : op.get? Operation.addressKey = some (AddressOf.model (⟨segments⟩ : Address))) :
    place? op = some segments := by
  unfold place?
  rw [h]
  exact mapM_segmentOf? segments

/-- An operation at a place or below it. -/
def Within (place : Segments) (op : Operation) : Prop := ∃ key, place? op = some key ∧ place <+: key

variable {s s' : ResourceServer} {t t' : ResourceTree} {place : Segments} {op : Operation}

/-- A change adds, removes or enables the resource at the place of the operation. -/
inductive Changed (t : ResourceTree) (op : Operation) (key : Segments) (t' : ResourceTree) : Prop
  | added (hname : op.get? Operation.nameKey = some (.str "add"))
      (h : t.add key (attributesIn key op) = some t')
  | removed (hname : op.get? Operation.nameKey = some (.str "remove")) (h : t.remove key = some t')
  | enabled (hname : op.get? Operation.nameKey = some (.str "enable"))
      (h : t.update key (Members.set "enabled" (.bool true)) = some t')

theorem changed_of_change (h : change? t op = some t') :
    ∃ key, place? op = some key ∧ Changed t op key t' := by
  unfold change? at h
  split at h
  · next kind key hname hkey =>
    refine ⟨key, hkey, ?_⟩
    split at h
    · exact .added hname h
    · exact .removed hname h
    · exact .enabled hname h
    · cases h
  · cases h

theorem Changed.without {key : Segments} (h : Changed t op key t') (hin : place <+: key) :
    t'.without place = t.without place := by
  cases h with
  | added _ h => exact ResourceTree.without_add h hin
  | removed _ h => rw [ResourceTree.eq_of_remove h, ResourceTree.without_without hin]
  | enabled _ h => exact ResourceTree.without_update h hin

theorem name_of_read {r : Outcome} (h : read? t op = some r) :
    op.get? Operation.nameKey = some (.str "read-resource") := by
  unfold read? at h
  split at h
  · assumption
  · cases h

/-- A step that succeeds has read something or made its change. -/
theorem step_cases (h : (step s op).1.isSuccessful = true) :
    (op.get? Operation.nameKey = some (.str "read-resource") ∧ (step s op).2 = s) ∨
      ∃ t key, place? op = some key ∧ Changed s.tree op key t ∧
        (step s op).2 = { s with tree := t } := by
  have hstep : step s op = execute s op := rfl
  rw [hstep] at h ⊢
  unfold execute at h ⊢
  cases hread : read? s.tree op with
  | some r => exact .inl ⟨name_of_read hread, rfl⟩
  | none =>
    cases hchange : change? s.tree op with
    | none =>
      rw [hread, hchange] at h
      cases h
    | some t =>
      obtain ⟨key, hkey, hchanged⟩ := changed_of_change hchange
      exact .inr ⟨t, key, hkey, hchanged, rfl⟩

/-- Two servers that differ at most at a place and below it. -/
structure SameBut (place : Segments) (s s' : ResourceServer) : Prop where
  server : s' = { s with tree := s'.tree }
  tree : s'.tree.without place = s.tree.without place

theorem SameBut.refl (place : Segments) (s : ResourceServer) : SameBut place s s := ⟨rfl, rfl⟩

theorem SameBut.trans {s'' : ResourceServer} (h : SameBut place s s') (h' : SameBut place s' s'') :
    SameBut place s s'' where
  server := by
    rw [h'.server, h.server]
  tree := h'.tree.trans h.tree

theorem step_sameBut (hin : Within place op) (h : (step s op).1.isSuccessful = true) :
    SameBut place s (step s op).2 := by
  obtain ⟨key, hkey, hplace⟩ := hin
  rcases step_cases h with ⟨-, hs⟩ | ⟨t, key', hkey', hchanged, hs⟩
  · rw [hs]
    exact .refl place s
  · obtain rfl : key = key' := Option.some.inj (hkey.symm.trans hkey')
    rw [hs]
    exact ⟨rfl, hchanged.without hplace⟩

/-- Operations within a place leave all that is outside of it. -/
theorem applied_sameBut {ops : List Operation} (h : Applied s ops s')
    (hin : ∀ op ∈ ops, Within place op) : SameBut place s s' := by
  induction h with
  | nil s => exact .refl place s
  | cons hop hs _ ih =>
    have hstep := step_sameBut (hin _ List.mem_cons_self) hop
    rw [hs] at hstep
    exact hstep.trans (ih fun op hmem => hin op (.tail _ hmem))

/-- The operation adds a resource or enables one, at a place or below it. -/
structure Builds (place : Segments) (op : Operation) : Prop where
  name : op.get? Operation.nameKey = some (.str "add") ∨
    op.get? Operation.nameKey = some (.str "enable")
  within : Within place op

theorem step_keeps (hbuilds : Builds place op) (h : (step s op).1.isSuccessful = true) :
    s.tree.keys ⊆ (step s op).2.tree.keys := by
  rcases step_cases h with ⟨-, hs⟩ | ⟨t, key, hkey, hchanged, hs⟩
  · rw [hs]
    exact List.Subset.refl _
  · rw [hs]
    cases hchanged with
    | added _ h => simp [ResourceTree.keys_add h]
    | removed hname _ => rcases hbuilds.name with h | h <;> simp [h] at hname
    | enabled _ h => simp [ResourceTree.keys_update h]

theorem applied_keeps {ops : List Operation} (h : Applied s ops s')
    (hbuilds : ∀ op ∈ ops, Builds place op) : s.tree.keys ⊆ s'.tree.keys := by
  induction h with
  | nil s => exact List.Subset.refl _
  | cons hop hs _ ih =>
    have hstep := step_keeps (hbuilds _ List.mem_cons_self) hop
    rw [hs] at hstep
    exact List.Subset.trans hstep (ih fun op hmem => hbuilds op (.tail _ hmem))

/-- A step that succeeds has made the change its name stands for. -/
theorem changed_of_step {kind : String} {key : Segments}
    (hname : op.get? Operation.nameKey = some (.str kind)) (hkind : kind ≠ "read-resource")
    (hkey : place? op = some key) (h : (step s op).1.isSuccessful = true) :
    ∃ t, Changed s.tree op key t ∧ (step s op).2 = { s with tree := t } := by
  rcases step_cases h with ⟨hread, -⟩ | ⟨t, key', hkey', hchanged, hs⟩
  · rw [hname] at hread
    cases hread
    exact absurd rfl hkind
  · obtain rfl : key = key' := Option.some.inj (hkey.symm.trans hkey')
    exact ⟨t, hchanged, hs⟩

theorem step_add {key : Segments} (hname : op.get? Operation.nameKey = some (.str "add"))
    (hkey : place? op = some key) (h : (step s op).1.isSuccessful = true) :
    key ∈ (step s op).2.tree.keys := by
  obtain ⟨t, hchanged, hs⟩ := changed_of_step hname (by decide) hkey h
  rw [hs]
  cases hchanged with
  | added _ h => simp [ResourceTree.keys_add h]
  | removed hremove _ => simp [hname] at hremove
  | enabled henable _ => simp [hname] at henable

section Steps

variable (s : ResourceServer) (segments : Segments)

theorem place?_remove : place? (Operation.remove ⟨segments⟩ true) = some segments :=
  place?_of_model rfl

theorem change?_remove (t : ResourceTree) :
    change? t (Operation.remove ⟨segments⟩ true) = t.remove segments := by
  unfold change?
  rw [place?_remove]
  rfl

theorem step_remove : step s (Operation.remove ⟨segments⟩ true) =
    if segments ∈ s.tree.keys then
      (succeeded .null, { s with tree := s.tree.without segments })
    else (failed (.str "The operation cannot be executed"), s) := by
  have hread : read? s.tree (Operation.remove ⟨segments⟩ true) = none := by
    unfold read?
    rw [place?_remove]
    rfl
  have hstep : step s (Operation.remove ⟨segments⟩ true) =
      execute s (Operation.remove ⟨segments⟩ true) := rfl
  rw [hstep, execute, hread, change?_remove, ResourceTree.remove]
  by_cases h : segments ∈ s.tree.keys
  · rw [if_pos h, if_pos h]
  · rw [if_neg h, if_neg h]

theorem place?_readResource : place? (Operation.readResource ⟨segments⟩ false) = some segments :=
  place?_of_model rfl

theorem step_readResource : step s (Operation.readResource ⟨segments⟩ false) =
    (if s.tree.Has segments then succeeded (.obj (modelAt s.tree segments))
      else failed (.str "The resource is not found"), s) := by
  have hread : read? s.tree (Operation.readResource ⟨segments⟩ false) =
      some (if s.tree.Has segments then succeeded (.obj (modelAt s.tree segments))
        else failed (.str "The resource is not found")) := by
    unfold read?
    rw [place?_readResource]
    rfl
  have hstep : step s (Operation.readResource ⟨segments⟩ false) =
      execute s (Operation.readResource ⟨segments⟩ false) := rfl
  rw [hstep, execute, hread]

theorem perform_readResource : perform s (Operation.readResource ⟨segments⟩ false) =
    (if s.tree.Has segments then succeeded (.obj (modelAt s.tree segments))
      else rolledBack (failed (.str "The resource is not found")), s) := by
  have hsingle : compositeSteps? (Operation.readResource ⟨segments⟩ false) = none := rfl
  unfold perform
  rw [hsingle, step_readResource]
  by_cases h : s.tree.Has segments
  · rw [if_pos h, if_pos h]
    rfl
  · rw [if_neg h, if_neg h]
    rfl

end Steps

section Listing

variable {model : Members} {kind : String} (name : String)

/-- What a model has under a type is nothing, or an object. -/
def Keyed (model : Members) (kind : String) : Prop :=
  model.get? kind = none ∨ ∃ names, model.get? kind = some (.obj names)

def lists (model : Members) (kind name : String) : Bool :=
  Existence.isListed name ((model.get? kind).getD .null)

theorem isKey_set (name other : String) (value : Json) (ms : Members) :
    Existence.isKey name (Members.set other value ms) =
      (Existence.isKey name ms || other == name) := by
  unfold Existence.isKey
  induction ms with
  | nil => simp [Members.set]
  | cons m ms ih =>
    obtain ⟨k, v⟩ := m
    unfold Members.set
    split
    · next hk => cases hkn : k == name <;> simp_all
    · rw [List.any_cons, List.any_cons, ih, Bool.or_assoc]

/-- A child is listed under its own type and no other. -/
theorem get?_withChild (h : Keyed model kind) (child : String × String) :
    (withChild model child).get? kind =
      if child.1 = kind then
        some (.obj (match model.get? kind with
          | some (.obj names) => Members.set child.2 .null names
          | _ => [(child.2, .null)]))
      else model.get? kind := by
  unfold withChild
  by_cases hkind : child.1 = kind
  · rw [if_pos hkind, hkind]
    rcases h with hnone | ⟨names, hnames⟩
    · simp [hnone]
    · simp [hnames]
  · rw [if_neg hkind]
    have hother := Members.get?_set_of_ne (Ne.symm hkind)
    split
    · exact hother _ _
    · exact hother _ _
    · rfl

theorem withChild_lists (h : Keyed model kind) (child : String × String) :
    Keyed (withChild model child) kind ∧
      (lists (withChild model child) kind name = true ↔
        lists model kind name = true ∨ child = (kind, name)) := by
  unfold Keyed lists
  rw [get?_withChild h]
  obtain ⟨kind', name'⟩ := child
  by_cases hkind : kind' = kind
  · rw [if_pos hkind]
    refine ⟨.inr ⟨_, rfl⟩, ?_⟩
    rcases h with hnone | ⟨names, hnames⟩
    · simp [hnone, hkind, Existence.isListed, Existence.isKey]
    · simp [hnames, hkind, Existence.isListed, isKey_set]
  · rw [if_neg hkind]
    exact ⟨h, by simp [hkind]⟩

theorem foldl_withChild (h : Keyed model kind) (children : List (String × String)) :
    Keyed (children.foldl withChild model) kind ∧
      (lists (children.foldl withChild model) kind name = true ↔
        lists model kind name = true ∨ (kind, name) ∈ children) := by
  induction children generalizing model with
  | nil => simp [h]
  | cons child children ih =>
    obtain ⟨hchild, hadded⟩ := withChild_lists name h child
    obtain ⟨hkeyed, hlists⟩ := ih hchild
    refine ⟨hkeyed, ?_⟩
    rw [List.foldl_cons, hlists, hadded, List.mem_cons, or_assoc, eq_comm (a := child)]

/-- A child is listed under its type, unless an attribute of its parent has that name. -/
theorem lists_modelAt {t : ResourceTree} {above : Segments}
    (h : (t.attributesOf above).get? kind = none) :
    Existence.Reported (((modelAt t above).get? kind).getD .null) ∧
      (lists (modelAt t above) kind name = true ↔ above ++ [(kind, name)] ∈ t.keys) := by
  obtain ⟨hkeyed, hlists⟩ := foldl_withChild name (.inl h) (t.childrenOf above)
  constructor
  · rcases hkeyed with hnone | ⟨names, hnames⟩
    · simp [modelAt, hnone, Existence.Reported]
    · simp [modelAt, hnames, Existence.Reported]
  · unfold modelAt
    rw [hlists]
    simp [lists, h, Existence.isListed, ResourceTree.mem_childrenOf]

end Listing

end ResourceServer

end ServerDeploy
