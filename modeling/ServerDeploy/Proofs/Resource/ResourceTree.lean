import Mathlib.Data.List.Nodup
import ServerDeploy.Proofs.Resource.Placement

/-! Trees of resources, each under the ones its address begins with. What is added or changed below an
address is taken away again with all that is there, and what remains is the tree from before. -/

namespace ServerDeploy

/-- Resources with their attributes by address, in the order in which they were added. A tree always
has a root, whose attributes are listed only if it has some. -/
@[ext]
structure ResourceTree where
  entries : List (Segments × Members)
  distinct : (entries.map Prod.fst).Nodup
  closed : ∀ key ∈ entries.map Prod.fst, ∀ above, above <+: key →
    above = [] ∨ above ∈ entries.map Prod.fst

namespace ResourceTree

variable {t t' : ResourceTree} {key place : Segments} {attributes : Members}

def empty : ResourceTree := ⟨[], .nil, nofun⟩

def keys (t : ResourceTree) : List Segments := t.entries.map Prod.fst

/-- There is a resource with the address, or it is the root. -/
def Has (t : ResourceTree) (key : Segments) : Prop := key = [] ∨ key ∈ t.keys

instance (t : ResourceTree) (key : Segments) : Decidable (t.Has key) :=
  inferInstanceAs (Decidable (_ ∨ _))

def attributesOf (t : ResourceTree) (key : Segments) : Members := (t.entries.lookup key).getD []

theorem has_of_prefix {above : Segments} (hkey : key ∈ t.keys) (h : above <+: key) : t.Has above :=
  t.closed key hkey above h

theorem nodup_add (h : key ∉ t.keys) : ((t.entries ++ [(key, attributes)]).map Prod.fst).Nodup := by
  rw [List.map_append, List.nodup_append]
  refine ⟨t.distinct, by simp, ?_⟩
  rintro a ha b hb rfl
  rw [List.mem_singleton.1 hb] at ha
  exact h ha

theorem closed_add (h : t.Has key.dropLast) :
    ∀ k ∈ (t.entries ++ [(key, attributes)]).map Prod.fst, ∀ above, above <+: k →
      above = [] ∨ above ∈ (t.entries ++ [(key, attributes)]).map Prod.fst := by
  intro k hk above habove
  rw [List.map_append, List.mem_append] at hk ⊢
  rcases hk with hk | hk
  · exact (t.closed k hk above habove).imp_right .inl
  · obtain rfl : k = key := by simpa using hk
    rcases List.eq_nil_or_concat' k with rfl | ⟨parent, last, rfl⟩
    · exact .inl (List.prefix_nil.1 habove)
    · rw [List.dropLast_concat] at h
      rcases List.prefix_concat_iff.1 habove with heq | hparent
      · exact .inr (.inr (by simp [heq]))
      · rcases h with rfl | hmem
        · exact .inl (List.prefix_nil.1 hparent)
        · exact (t.closed parent hmem above hparent).imp_right .inl

/-- A new resource comes last. Its parent must be there already. -/
def add (t : ResourceTree) (key : Segments) (attributes : Members) : Option ResourceTree :=
  if h : key ∉ t.keys ∧ t.Has key.dropLast then
    some ⟨t.entries ++ [(key, attributes)], nodup_add h.1, closed_add h.2⟩
  else none

/-- The tree without a resource and all that is below it. -/
def without (t : ResourceTree) (place : Segments) : ResourceTree where
  entries := t.entries.filter fun e => ¬place <+: e.1
  distinct := (List.filter_sublist.map _).nodup t.distinct
  closed := by
    intro key hkey above habove
    obtain ⟨e, he, rfl⟩ := List.mem_map.1 hkey
    obtain ⟨he, hout⟩ := List.mem_filter.1 he
    refine (t.closed e.1 (List.mem_map_of_mem he) above habove).imp_right fun hmem => ?_
    obtain ⟨e', he', rfl⟩ := List.mem_map.1 hmem
    have hout' : ¬place <+: e'.1 := fun hin => of_decide_eq_true hout (hin.trans habove)
    exact List.mem_map_of_mem (List.mem_filter.2 ⟨he', decide_eq_true hout'⟩)

def remove (t : ResourceTree) (key : Segments) : Option ResourceTree :=
  if key ∈ t.keys then some (t.without key) else none

def changeEntry (key : Segments) (f : Members → Members) (e : Segments × Members) :
    Segments × Members :=
  if e.1 = key then (e.1, f e.2) else e

theorem fst_changeEntry (key : Segments) (f : Members → Members) (e : Segments × Members) :
    (changeEntry key f e).1 = e.1 := by
  unfold changeEntry
  split <;> rfl

theorem keys_changeEntry (key : Segments) (f : Members → Members)
    (entries : List (Segments × Members)) :
    (entries.map (changeEntry key f)).map Prod.fst = entries.map Prod.fst := by
  rw [List.map_map]
  exact List.map_congr_left fun e _ => fst_changeEntry key f e

/-- A changed resource keeps its place. -/
def update (t : ResourceTree) (key : Segments) (f : Members → Members) : Option ResourceTree :=
  if key ∈ t.keys then
    some ⟨t.entries.map (changeEntry key f), by rw [keys_changeEntry]; exact t.distinct,
      by rw [keys_changeEntry]; exact t.closed⟩
  else none

/-- The resource that an address is a child of another as, by its type and name. -/
def childOf? (above key : Segments) : Option (String × String) :=
  if key.dropLast = above then key.getLast? else none

def childrenOf (t : ResourceTree) (above : Segments) : List (String × String) :=
  t.keys.filterMap (childOf? above)

theorem childOf?_eq_some {above : Segments} {child : String × String} :
    childOf? above key = some child ↔ key = above ++ [child] := by
  unfold childOf?
  rcases List.eq_nil_or_concat' key with rfl | ⟨parent, last, rfl⟩
  · simp
  · rw [List.dropLast_concat, List.getLast?_concat]
    constructor
    · intro h
      split at h
      · next heq => rw [heq, Option.some.inj h]
      · cases h
    · intro h
      obtain ⟨rfl, hlast⟩ := List.append_inj' h rfl
      rw [if_pos rfl, List.head_eq_of_cons_eq hlast]

theorem mem_childrenOf {above : Segments} {child : String × String} :
    child ∈ t.childrenOf above ↔ above ++ [child] ∈ t.keys := by
  simp [childrenOf, List.mem_filterMap, childOf?_eq_some]

section Changes

theorem keys_add (h : t.add key attributes = some t') : t'.keys = t.keys ++ [key] := by
  unfold add at h
  split at h
  · cases h
    simp [keys]
  · cases h

theorem keys_update {f : Members → Members} (h : t.update key f = some t') : t'.keys = t.keys := by
  unfold update at h
  split at h
  · cases h
    exact keys_changeEntry key f t.entries
  · cases h

theorem eq_of_remove (h : t.remove key = some t') : t' = t.without key := by
  unfold remove at h
  split at h
  · cases h
    rfl
  · cases h

/-- What is added at or below a place is gone with it. -/
theorem without_add (h : t.add key attributes = some t') (hin : place <+: key) :
    t'.without place = t.without place := by
  unfold add at h
  split at h
  · cases h
    ext1
    simp [without, List.filter_append, hin]
  · cases h

theorem without_update {f : Members → Members} (h : t.update key f = some t')
    (hin : place <+: key) : t'.without place = t.without place := by
  unfold update at h
  split at h
  · cases h
    ext1
    change List.filter _ (List.map _ t.entries) = List.filter _ t.entries
    rw [List.filter_map]
    have hsame : (fun e : Segments × Members => decide ¬place <+: e.1) ∘ changeEntry key f =
        fun e => decide ¬place <+: e.1 := by
      funext e
      simp only [Function.comp_apply, fst_changeEntry]
    rw [hsame]
    refine (List.map_congr_left fun e he => ?_).trans (List.map_id _)
    -- what was changed is below the place, so it is not among what remains
    have hout : ¬place <+: e.1 := of_decide_eq_true (List.mem_filter.1 he).2
    exact if_neg fun heq : e.1 = key => hout (heq ▸ hin)
  · cases h

theorem without_without (hin : place <+: key) : (t.without key).without place = t.without place := by
  ext1
  simp only [without, List.filter_filter]
  refine List.filter_congr fun e _ => ?_
  have himp : key <+: e.1 → place <+: e.1 := hin.trans
  by_cases hplace : place <+: e.1
  · simp [hplace]
  · simp [hplace, mt himp hplace]

/-- Where nothing stands there is nothing to take away, since nothing stands below it either. -/
theorem without_of_not_has (h : ¬t.Has place) : t.without place = t := by
  ext1
  refine List.filter_eq_self.2 fun e he => decide_eq_true fun hin => h ?_
  exact has_of_prefix (List.mem_map_of_mem he) hin

theorem attributesOf_without {above : Segments} (h : ¬place <+: above) :
    (t.without place).attributesOf above = t.attributesOf above := by
  unfold attributesOf without
  dsimp only
  congr 1
  induction t.entries with
  | nil => rfl
  | cons e entries ih =>
    by_cases heq : above = e.1
    · rw [List.filter_cons_of_pos (by simpa [← heq] using h), List.lookup_cons, List.lookup_cons, heq]
      simp
    · have hne : (above == e.1) = false := beq_false_of_ne heq
      rw [List.lookup_cons, hne]
      by_cases hin : place <+: e.1
      · rw [List.filter_cons_of_neg (by simpa using hin), ih]
      · rw [List.filter_cons_of_pos (by simpa using hin), List.lookup_cons, hne, ih]

end Changes

end ResourceTree

end ServerDeploy
