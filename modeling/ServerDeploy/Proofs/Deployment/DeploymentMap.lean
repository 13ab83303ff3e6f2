import Mathlib.Logic.Function.Basic
import ServerDeploy.Json.Basic

/-! Ordered maps of deployments by name. Each change fails where the name is taken or missing, and
otherwise touches the entry of one name. -/

namespace ServerDeploy

structure Deployed where
  enabled : Bool
  content : Json
  deriving Repr, Inhabited

/-- Deployments by name, in the order in which they were added. -/
structure DeploymentMap where
  entries : List (String × Deployed)
  distinct : (entries.map Prod.fst).Nodup

namespace DeploymentMap

variable {m m' : DeploymentMap} {name : String}

def names (m : DeploymentMap) : List String := m.entries.map Prod.fst

def get? (m : DeploymentMap) (name : String) : Option Deployed := m.entries.lookup name

def changeEntry (name : String) (f : Deployed → Deployed) (entries : List (String × Deployed)) :
    List (String × Deployed) :=
  entries.map fun e => if e.1 = name then (e.1, f e.2) else e

theorem names_changeEntry (name : String) (f : Deployed → Deployed)
    (entries : List (String × Deployed)) :
    (changeEntry name f entries).map Prod.fst = entries.map Prod.fst := by
  rw [changeEntry, List.map_map]
  refine List.map_congr_left fun e _ => ?_
  dsimp only [Function.comp]
  split <;> rfl

theorem nodup_append_new {d : Deployed} (h : name ∉ m.names) :
    ((m.entries ++ [(name, d)]).map Prod.fst).Nodup := by
  rw [List.map_append, List.nodup_append]
  refine ⟨m.distinct, by simp, ?_⟩
  rintro a ha b hb rfl
  rw [List.mem_singleton.mp hb] at ha
  exact h ha

/-- A new deployment comes last. -/
def add (m : DeploymentMap) (name : String) (d : Deployed) : Option DeploymentMap :=
  if h : name ∈ m.names then none
  else some ⟨m.entries ++ [(name, d)], nodup_append_new h⟩

/-- A changed deployment keeps its place. -/
def update (m : DeploymentMap) (name : String) (f : Deployed → Deployed) : Option DeploymentMap :=
  if name ∈ m.names then
    some ⟨changeEntry name f m.entries, by rw [names_changeEntry]; exact m.distinct⟩
  else none

def remove (m : DeploymentMap) (name : String) : Option DeploymentMap :=
  if name ∈ m.names then
    some ⟨m.entries.filter fun e => e.1 != name, (List.filter_sublist.map _).nodup m.distinct⟩
  else none

theorem mem_names : name ∈ m.names ↔ (m.get? name).isSome = true := by
  rw [get?, List.lookup_isSome_iff, names, List.mem_map]
  constructor
  · rintro ⟨e, he, rfl⟩
    exact ⟨e, he, beq_self_eq_true _⟩
  · rintro ⟨e, he, hk⟩
    exact ⟨e, he, (eq_of_beq hk).symm⟩

theorem lookup_entry (k : String) (e : String × Deployed) (entries : List (String × Deployed)) :
    (e :: entries).lookup k = if k = e.1 then some e.2 else entries.lookup k := by
  rw [List.lookup_cons]
  by_cases hk : k = e.1
  · rw [if_pos hk, hk, beq_self_eq_true]
  · rw [if_neg hk, beq_false_of_ne hk]

theorem lookup_changeEntry (name k : String) (f : Deployed → Deployed)
    (entries : List (String × Deployed)) :
    (changeEntry name f entries).lookup k =
      if k = name then (entries.lookup name).map f else entries.lookup k := by
  induction entries with
  | nil => simp [changeEntry]
  | cons e entries ih =>
    rw [changeEntry, List.map_cons, ← changeEntry, lookup_entry, lookup_entry, lookup_entry, ih]
    by_cases he : e.1 = name
    · by_cases hk : k = name
      · simp [he, hk]
      · simp [he, hk]
    · by_cases hk : k = name
      · simp [he, hk, Ne.symm he]
      · simp [he, hk]

theorem lookup_filter_ne (name k : String) (entries : List (String × Deployed)) :
    (entries.filter fun e => e.1 != name).lookup k =
      if k = name then none else entries.lookup k := by
  induction entries with
  | nil => simp
  | cons e entries ih =>
    rw [lookup_entry]
    by_cases he : e.1 = name
    · rw [List.filter_cons_of_neg (by simp [he]), ih]
      by_cases hk : k = name
      · rw [if_pos hk, if_pos hk]
      · rw [if_neg hk, if_neg hk, if_neg (he ▸ hk)]
    · rw [List.filter_cons_of_pos (by simp [he]), lookup_entry, ih]
      by_cases hk : k = name
      · rw [if_pos hk, if_pos hk, hk, if_neg (Ne.symm he)]
      · rw [if_neg hk, if_neg hk]

theorem get?_of_add {d : Deployed} (h : m.add name d = some m') :
    m'.get? = Function.update m.get? name (some d) := by
  unfold add at h
  split at h
  · cases h
  · next hn =>
    cases h
    have hfree : m.get? name = none := by
      simpa only [mem_names, Bool.not_eq_true, Option.isSome_eq_false_iff,
        Option.isNone_iff_eq_none] using hn
    funext k
    rw [Function.update_apply]
    change (m.entries ++ [(name, d)]).lookup k = _
    rw [List.lookup_append, ← get?, List.lookup_cons, List.lookup_nil]
    by_cases hk : k = name
    · subst hk
      simp [hfree]
    · simp [hk, beq_false_of_ne hk]

theorem get?_of_update {f : Deployed → Deployed} (h : m.update name f = some m') :
    m'.get? = Function.update m.get? name ((m.get? name).map f) := by
  unfold update at h
  split at h
  · cases h
    funext k
    rw [Function.update_apply]
    exact lookup_changeEntry name k f m.entries
  · cases h

theorem get?_of_remove (h : m.remove name = some m') :
    m'.get? = Function.update m.get? name none := by
  unfold remove at h
  split at h
  · cases h
    funext k
    rw [Function.update_apply]
    exact lookup_filter_ne name k m.entries
  · cases h

end DeploymentMap

end ServerDeploy
