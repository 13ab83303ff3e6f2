import ServerDeploy.Proofs.Model.MemberPath
import ServerDeploy.Proofs.Resource.ResourceServer

/-! What the expansion of a resource tree builds. As long as no property stands for the name or the
address of an operation, the steps add and enable resources at the place of the tree and below it, and
the first adds the resource at the place. What they have built is taken away whole with the place. -/

namespace ServerDeploy

namespace Operation

/-- A property key that sets neither the name nor the address of an operation. -/
def Unreserved (key : String) : Prop :=
  ∀ path, propertyPath? key = some path →
    path.head? ≠ some nameKey ∧ path.head? ≠ some addressKey

/-- The operation has the name and the address. -/
structure Heads (op : Operation) (kind : String) (address : Address) : Prop where
  name : op.get? nameKey = some (.str kind)
  address : op.get? addressKey = some address.model

theorem Heads.setProperty {op op' : Operation} {kind key : String} {address : Address}
    {raw : RawValue} (h : op.Heads kind address) (hkey : Unreserved key)
    (hset : setProperty op key raw = .ok op') : op'.Heads kind address := by
  unfold Operation.setProperty at hset
  split at hset
  · cases hset
  · next path hpath =>
    obtain ⟨hname, haddress⟩ := hkey path hpath
    split at hset
    · cases hset
    · split at hset
      · cases hset
      · cases hset
        exact ⟨(get?_setPath hname).trans h.name, (get?_setPath haddress).trans h.address⟩

theorem Heads.setProperties {op op' : Operation} {kind : String} {address : Address}
    {properties : List (String × RawValue)} (h : op.Heads kind address)
    (hkeys : ∀ p ∈ properties, Unreserved p.1) (hset : setProperties op properties = .ok op') :
    op'.Heads kind address := by
  induction properties generalizing op with
  | nil =>
    cases hset
    exact h
  | cons property rest ih =>
    obtain ⟨key, raw⟩ := property
    unfold Operation.setProperties at hset
    split at hset
    · cases hset
    · next op₁ hop₁ =>
      exact ih (h.setProperty (hkeys _ List.mem_cons_self) hop₁)
        (fun p hp => hkeys p (.tail _ hp)) hset

end Operation

open Address ManagementServer Operation ResourceServer

namespace Resource

theorem names_setProperty (key : String) (v : PropertyValue)
    (properties : List (String × PropertyValue)) :
    (setProperty key v properties).map Prod.fst ⊆ key :: properties.map Prod.fst := by
  induction properties with
  | nil => exact List.Subset.refl _
  | cons property rest ih =>
    obtain ⟨k, u⟩ := property
    unfold setProperty
    split
    · simp
    · refine List.cons_subset.2 ⟨by simp, fun name hname => ?_⟩
      rcases List.mem_cons.1 (ih hname) with rfl | hrest
      · exact List.mem_cons_self
      · exact .tail _ (.tail _ hrest)

theorem names_propertyMap (r : Resource) :
    r.propertyMap.map Prod.fst ⊆ r.properties.map Prod.fst := by
  have hfold : ∀ properties done : List (String × PropertyValue),
      (properties.foldl (fun done p => setProperty p.1 p.2 done) done).map Prod.fst ⊆
        done.map Prod.fst ++ properties.map Prod.fst := by
    intro properties
    induction properties with
    | nil => simp
    | cons property rest ih =>
      intro done name hname
      have hstep := names_setProperty property.1 property.2 done
      rcases List.mem_append.1 (ih _ hname) with hdone | hrest
      · rcases List.mem_cons.1 (hstep hdone) with rfl | hdone
        · simp
        · exact List.mem_append_left _ hdone
      · exact List.mem_append_right _ (.tail _ hrest)
  have hall := hfold r.properties []
  rwa [List.map_nil, List.nil_append] at hall

mutual

/-- A resource and all resources below it. -/
def nodes : Resource → List Resource
  | .mk own properties enable addIfAbsent children beforeAdd afterAdd =>
    .mk own properties enable addIfAbsent children beforeAdd afterAdd :: nodesOfAll children

def nodesOfAll : List Resource → List Resource
  | [] => []
  | child :: rest => nodes child ++ nodesOfAll rest

end

theorem heads_add (segments : Segments) : Heads (Operation.add ⟨segments⟩) "add" ⟨segments⟩ :=
  ⟨rfl, rfl⟩

theorem heads_enable (segments : Segments) :
    Heads (Operation.enable ⟨segments⟩) "enable" ⟨segments⟩ := ⟨rfl, rfl⟩

theorem unreserved_rawProperties {r : Resource} (hkeys : ∀ p ∈ r.properties, Unreserved p.1) :
    ∀ p ∈ rawProperties r, Unreserved p.1 := by
  intro p hp
  obtain ⟨q, hq, rfl⟩ := List.mem_map.1 hp
  obtain ⟨q', hq', hname⟩ := List.mem_map.1 (names_propertyMap r (List.mem_map_of_mem hq))
  exact hname ▸ hkeys q' hq'

theorem builds_of_heads {op : Operation} {kind : String} {place key : Segments}
    (h : op.Heads kind ⟨key⟩) (hkind : kind = "add" ∨ kind = "enable") (hin : place <+: key) :
    Builds place op where
  name := by
    rcases hkind with rfl | rfl
    · exact .inl h.name
    · exact .inr h.name
  within := ⟨key, place?_of_model h.address, hin⟩

theorem builds_above {op : Operation} {place inner : Segments} (h : Builds inner op)
    (hin : place <+: inner) : Builds place op := by
  obtain ⟨hname, key, hkey, hinner⟩ := h
  exact ⟨hname, key, hkey, hin.trans hinner⟩

theorem prefix_of_below {inherited inner : Segments} {own : Option String}
    (h : below? inherited own = some inner) : inherited <+: inner := by
  unfold below? at h
  split at h
  · cases h
    exact List.prefix_refl _
  · obtain ⟨own, -, rfl⟩ := Option.map_eq_some_iff.1 h
    split
    · exact List.prefix_refl _
    · exact List.prefix_append _ _

theorem addStep_heads {r : Resource} {address : Address} {step : Json}
    (hkeys : ∀ p ∈ r.properties, Unreserved p.1) (h : addStep? address r = some step) :
    ∃ op : Operation, step = .obj op ∧ op.Heads "add" address := by
  obtain ⟨op, hadd, hstep⟩ := eq_of_addStep? h
  exact ⟨op, hstep,
    (heads_add address.segments).setProperties (unreserved_rawProperties hkeys) hadd⟩

theorem enableSteps_builds (segments : Segments) (enable : Bool) : ∃ ops : List Operation,
    enableSteps ⟨segments⟩ enable = ops.map .obj ∧ ∀ op ∈ ops, Builds segments op := by
  cases enable with
  | false => exact ⟨[], rfl, nofun⟩
  | true =>
    refine ⟨[Operation.enable ⟨segments⟩], rfl, fun op hop => ?_⟩
    rw [List.mem_singleton.1 hop]
    exact builds_of_heads (heads_enable segments) (.inr rfl) (List.prefix_refl _)

/-- Operations that build at a place and below it, the first of which adds the resource there. -/
structure BuildsAt (place : Segments) (ops : List Operation) : Prop where
  builds : ∀ op ∈ ops, Builds place op
  first : ∃ op rest, ops = op :: rest ∧ op.Heads "add" ⟨place⟩

mutual

theorem expand_builds : ∀ (r : Resource) {segments : Segments} {steps : List Json},
    (∀ node ∈ r.nodes, ∀ p ∈ node.properties, Unreserved p.1) →
      expand? none segments r = some steps → ∃ ops : List Operation,
        steps = ops.map .obj ∧ BuildsAt segments ops
  | .mk own properties enable addIfAbsent children beforeAdd afterAdd, segments, steps, hkeys, h => by
    unfold expand? at h
    obtain ⟨add, hadd, h⟩ := Option.bind_eq_some_iff.1 h
    obtain ⟨inner, hinner, rfl⟩ := Option.map_eq_some_iff.1 h
    obtain ⟨op, rfl, hop⟩ := addStep_heads (hkeys _ List.mem_cons_self) hadd
    obtain ⟨ops, rfl, hops⟩ :=
      expandAll_builds children (fun node hnode => hkeys node (.tail _ hnode)) hinner
    obtain ⟨last, hlast, hbuilds⟩ := enableSteps_builds segments enable
    refine ⟨op :: (ops ++ last), ?_, fun op' hop' => ?_, op, ops ++ last, rfl, hop⟩
    · rw [inProfile_none, hlast]
      simp
    · rcases List.mem_cons.1 hop' with rfl | hop'
      · exact builds_of_heads hop (.inl rfl) (List.prefix_refl _)
      · exact (List.mem_append.1 hop').elim (hops op') (hbuilds op')

theorem expandAll_builds : ∀ (children : List Resource) {segments : Segments} {steps : List Json},
    (∀ node ∈ nodesOfAll children, ∀ p ∈ node.properties, Unreserved p.1) →
      expandAll? none segments children = some steps → ∃ ops : List Operation,
        steps = ops.map .obj ∧ ∀ op ∈ ops, Builds segments op
  | [], segments, steps, _, h => by
    cases h
    exact ⟨[], rfl, nofun⟩
  | child :: rest, segments, steps, hkeys, h => by
    unfold expandAll? at h
    obtain ⟨inner, hinner, h⟩ := Option.bind_eq_some_iff.1 h
    obtain ⟨first, hfirst, h⟩ := Option.bind_eq_some_iff.1 h
    obtain ⟨more, hmore, rfl⟩ := Option.map_eq_some_iff.1 h
    obtain ⟨ops, rfl, hops⟩ := expand_builds child
      (fun node hnode => hkeys node (List.mem_append_left _ hnode)) hfirst
    obtain ⟨others, rfl, hothers⟩ := expandAll_builds rest
      (fun node hnode => hkeys node (List.mem_append_right _ hnode)) hmore
    refine ⟨ops ++ others, by simp, fun op hop => ?_⟩
    rcases List.mem_append.1 hop with hop | hop
    · exact builds_above (hops.builds op hop) (prefix_of_below hinner)
    · exact hothers op hop

end

end Resource

section Built

variable {s s₁ : ResourceServer} {place : Segments} {op : Operation} {ops : List Operation}

def removalOf (place : Segments) (isThere : Bool) : List Operation :=
  if isThere then [remove ⟨place⟩ true] else []

/-- Operations have built what stands at a place, on the server without what stood there before. -/
structure Built (place : Segments) (ops : List Operation) (s s₁ : ResourceServer) : Prop where
  applied : Applied { s with tree := s.tree.without place } ops s₁
  isThere : place ∈ s₁.tree.keys
  same : SameBut place s s₁

theorem applied_cleared (hplace : place ≠ [])
    (h : Applied s (removalOf place (decide (place ∈ s.tree.keys)) ++ ops) s₁) :
    Applied { s with tree := s.tree.without place } ops s₁ := by
  by_cases hthere : place ∈ s.tree.keys
  · rw [decide_eq_true hthere] at h
    cases h with
    | cons hstep hs hrest =>
      rw [step_remove, if_pos hthere] at hs
      subst hs
      exact hrest
  · rw [decide_eq_false hthere] at h
    have hnothing : s.tree.without place = s.tree :=
      ResourceTree.without_of_not_has (not_or.2 ⟨hplace, hthere⟩)
    rw [hnothing]
    exact h

theorem built_of_applied (hplace : place ≠ []) (hops : Resource.BuildsAt place ops)
    (h : Applied s (removalOf place (decide (place ∈ s.tree.keys)) ++ ops) s₁) :
    Built place ops s s₁ := by
  have hcleared := applied_cleared hplace h
  have hsame := applied_sameBut hcleared fun op hop => (hops.builds op hop).within
  refine ⟨hcleared, ?_, ⟨hsame.server, hsame.tree.trans
    (ResourceTree.without_without (List.prefix_refl _))⟩⟩
  -- the first operation adds the resource, and what follows removes nothing
  obtain ⟨op, rest, rfl, hop⟩ := hops.first
  cases hcleared with
  | cons hstep hs hrest =>
    have hadded := step_add hop.name (place?_of_model hop.address) hstep
    rw [hs] at hadded
    exact applied_keeps hrest (fun op hop => hops.builds op (.tail _ hop)) hadded

theorem within_removal (hops : Resource.BuildsAt place ops) (isThere : Bool) :
    ∀ op ∈ removalOf place isThere ++ ops, Within place op := by
  intro op hop
  rcases List.mem_append.1 hop with hop | hop
  · cases isThere with
    | false => cases hop
    | true =>
      obtain rfl := List.mem_singleton.1 hop
      exact ⟨place, place?_remove place, List.prefix_refl _⟩
  · exact (hops.builds op hop).within

/-- What has been built is taken away whole, and built again as it was. -/
theorem Built.again (h : Built place ops s s₁) : Applied s₁ (remove ⟨place⟩ true :: ops) s₁ := by
  have hstep := step_remove s₁ place
  rw [if_pos h.isThere] at hstep
  refine .cons (by rw [hstep]; rfl) (congrArg Prod.snd hstep) ?_
  have hcleared : { s₁ with tree := s₁.tree.without place } =
      ({ s with tree := s.tree.without place } : ResourceServer) := by
    rw [h.same.tree, h.same.server]
  exact hcleared ▸ h.applied

theorem Built.has_above {above : Segments} {last : String × String}
    (h : Built (above ++ [last]) ops s s₁) : s₁.tree.Has above :=
  ResourceTree.has_of_prefix h.isThere (List.prefix_append _ _)

theorem Built.attributesOf_above {above : Segments} {last : String × String}
    (h : Built (above ++ [last]) ops s s₁) :
    s₁.tree.attributesOf above = s.tree.attributesOf above := by
  have hout : ¬above ++ [last] <+: above := fun hin => by
    have hlength := hin.length_le
    rw [List.length_append, List.length_singleton] at hlength
    omega
  rw [← ResourceTree.attributesOf_without hout, h.same.tree,
    ResourceTree.attributesOf_without hout]

end Built

end ServerDeploy
