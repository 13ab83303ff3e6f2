import ServerDeploy.Json.Basic

/-! Members that are set one after the other: what is set is what there was or what was given, and
with different names the order is kept. -/

namespace ServerDeploy

namespace Members

theorem mem_of_get? {name : String} {value : Json} {ms : Members} (h : ms.get? name = some value) :
    (name, value) ∈ ms := by
  induction ms with
  | nil => cases h
  | cons m ms ih =>
    obtain ⟨k, v⟩ := m
    unfold Members.get? at h
    split at h
    · next hk =>
      cases h
      simp [hk]
    · exact List.mem_cons_of_mem _ (ih h)

theorem exists_get?_of_mem {name : String} {value : Json} {ms : Members} (h : (name, value) ∈ ms) :
    ∃ found, ms.get? name = some found := by
  induction ms with
  | nil => cases h
  | cons m ms ih =>
    obtain ⟨k, v⟩ := m
    unfold Members.get?
    split
    · exact ⟨v, rfl⟩
    · next hk =>
      rcases List.mem_cons.1 h with heq | h
      · exact absurd (Prod.mk.inj heq).1.symm hk
      · exact ih h

theorem get?_append_of_some {name : String} {value : Json} {ms : Members}
    (h : ms.get? name = some value) (more : Members) : Members.get? name (ms ++ more) = some value := by
  induction ms with
  | nil => cases h
  | cons m ms ih =>
    obtain ⟨k, v⟩ := m
    rw [List.cons_append]
    unfold Members.get? at h ⊢
    split at h
    · next hk => rw [if_pos hk, h]
    · next hk => rw [if_neg hk, ih h]

theorem get?_append (name : String) (ms more : Members) :
    Members.get? name (ms ++ more) = (ms.get? name).or (more.get? name) := by
  induction ms with
  | nil => rfl
  | cons m ms ih =>
    obtain ⟨k, v⟩ := m
    by_cases hk : k = name
    · simp [get?, hk]
    · simp [get?, hk, ih]

theorem get?_eq_none_iff {name : String} {ms : Members} :
    ms.get? name = none ↔ name ∉ ms.map (·.1) := by
  induction ms with
  | nil => simp [get?]
  | cons m ms ih =>
    obtain ⟨k, v⟩ := m
    by_cases hk : k = name
    · simp [get?, hk]
    · simp only [get?, hk, if_false, ih, List.map_cons, List.mem_cons, Ne.symm hk, false_or]

/-- The last of the values that are set counts, and what was there if none is. -/
theorem get?_setAll (name : String) (before : Members) (updates : List (String × Json)) :
    (setAll before updates).get? name = (get? name updates.reverse).or (before.get? name) := by
  induction updates generalizing before with
  | nil => rfl
  | cons update updates ih =>
    obtain ⟨k, v⟩ := update
    have hset : (get? name [(k, v)]).or (before.get? name) = (set k v before).get? name := by
      by_cases hk : k = name
      · simp [get?, hk]
      · rw [get?_set_of_ne (Ne.symm hk)]
        simp [get?, hk]
    change (setAll (set k v before) updates).get? name = _
    rw [ih, List.reverse_cons, get?_append, Option.or_assoc, hset]

theorem mem_set {name : String} {value : Json} {ms : Members} {m : String × Json}
    (h : m ∈ Members.set name value ms) : m ∈ ms ∨ m = (name, value) := by
  induction ms with
  | nil => exact .inr (by simpa [Members.set] using h)
  | cons first ms ih =>
    obtain ⟨k, v⟩ := first
    unfold Members.set at h
    split at h
    · next hk =>
      rcases List.mem_cons.1 h with rfl | h
      · exact .inr (by rw [hk])
      · exact .inl (by simp [h])
    · rcases List.mem_cons.1 h with rfl | h
      · exact .inl (by simp)
      · exact (ih h).imp_left fun h => by simp [h]

theorem mem_setAll {before : Members} {updates : List (String × Json)} {m : String × Json}
    (h : m ∈ Members.setAll before updates) : m ∈ before ∨ m ∈ updates := by
  induction updates generalizing before with
  | nil => exact .inl h
  | cons update updates ih =>
    obtain ⟨k, v⟩ := update
    have hrest : m ∈ Members.setAll (Members.set k v before) updates := h
    rcases ih hrest with h | h
    · exact (mem_set h).imp_right fun h => by simp [h]
    · exact .inr (by simp [h])

theorem set_of_not_mem {name : String} {ms : Members} (h : name ∉ ms.map (·.1)) (value : Json) :
    Members.set name value ms = ms ++ [(name, value)] := by
  induction ms with
  | nil => rfl
  | cons m ms ih =>
    obtain ⟨k, v⟩ := m
    simp only [List.map_cons, List.mem_cons, not_or] at h
    rw [Members.set, if_neg (Ne.symm h.1), ih h.2, List.cons_append]

theorem setAll_of_nodup {before : Members} {updates : List (String × Json)}
    (h : (before.map (·.1) ++ updates.map (·.1)).Nodup) :
    Members.setAll before updates = before ++ updates := by
  induction updates generalizing before with
  | nil => simp [Members.setAll]
  | cons update updates ih =>
    obtain ⟨k, v⟩ := update
    have hk : k ∉ before.map (·.1) := fun hk =>
      (List.nodup_append.1 h).2.2 k hk k (by simp) rfl
    change Members.setAll (Members.set k v before) updates = _
    rw [set_of_not_mem hk, ih (by simpa using h), List.append_assoc, List.singleton_append]

end Members

namespace Json

theorem isText_member {member : Option Json} {s : String} :
    (member.getD .null).isText s = true ↔ member = some (.str s) := by
  cases member with
  | none => simp [isText]
  | some v =>
    cases v with
    | str t => simp [isText, eq_comm (a := s)]
    | null | bool | int | num | arr | obj => simp [isText]

end Json

end ServerDeploy
