import ServerDeploy.Model.Address

/-! Address texts and the segments they write. A text that can be read is determined by its segments,
and texts joined with a comma write the segments of both. -/

namespace ServerDeploy

theorem splitAtChar_append (sep : Char) (xs ys : List Char) :
    splitAtChar sep (xs ++ sep :: ys) = splitAtChar sep xs ++ splitAtChar sep ys := by
  induction xs with
  | nil => simp [splitAtChar]
  | cons c xs ih =>
    by_cases hc : c = sep
    · simp [splitAtChar, hc, ih]
    · cases hx : splitAtChar sep xs with
      | nil => exact absurd hx (splitAtChar_ne_nil sep xs)
      | cons part parts => simp [splitAtChar, hc, ih, hx]

namespace Address

def Writes (s : String) (segments : List (String × String)) : Prop :=
  readSegments (splitAtChar ',' s.toList) = .ok segments

theorem readSegments_append (ps qs : List (List Char)) :
    readSegments (ps ++ qs) = match readSegments ps with
      | .error part => .error part
      | .ok segments => (readSegments qs).map (segments ++ ·) := by
  induction ps with
  | nil =>
    simp only [List.nil_append, readSegments]
    cases readSegments qs <;> rfl
  | cons p ps ih =>
    simp only [List.cons_append, readSegments, ih]
    cases readSegment? p with
    | none => rfl
    | some segment =>
      cases readSegments ps with
      | error part => rfl
      | ok segments => cases readSegments qs <;> rfl

theorem readSegment?_text {part : List Char} {key value : String}
    (h : readSegment? part = some (key, value)) : part = key.toList ++ '=' :: value.toList := by
  have hj := joinWith_splitAtChar '=' part
  unfold readSegment? at h
  split at h
  · next k v hs =>
    split at h
    · cases h
    · cases h
      rw [hs] at hj
      simpa [joinWith] using hj.symm
  · cases h

theorem readSegments_cons {part : List Char} {parts : List (List Char)}
    {segments : List (String × String)} (h : readSegments (part :: parts) = .ok segments) :
    ∃ segment rest, readSegment? part = some segment ∧ readSegments parts = .ok rest ∧
      segments = segment :: rest := by
  unfold readSegments at h
  split at h
  · cases h
  · next segment hs =>
    rcases hr : readSegments parts with part' | rest
    · rw [hr] at h
      cases h
    · rw [hr] at h
      cases h
      exact ⟨segment, rest, hs, rfl, rfl⟩

theorem readSegments_inj {ps qs : List (List Char)} {segments : List (String × String)}
    (hp : readSegments ps = .ok segments) (hq : readSegments qs = .ok segments) : ps = qs := by
  induction ps generalizing qs segments with
  | nil =>
    cases hp
    cases qs with
    | nil => rfl
    | cons q qs =>
      obtain ⟨segment, rest, -, -, h⟩ := readSegments_cons hq
      cases h
  | cons p ps ih =>
    obtain ⟨⟨key, value⟩, rest, hsegment, hrest, rfl⟩ := readSegments_cons hp
    cases qs with
    | nil => cases hq
    | cons q qs =>
      obtain ⟨segment', rest', hsegment', hrest', h⟩ := readSegments_cons hq
      cases h
      rw [readSegment?_text hsegment, readSegment?_text hsegment', ih hrest hrest']

theorem Writes.inj {s t : String} {segments : List (String × String)} (hs : Writes s segments)
    (ht : Writes t segments) : s = t := by
  have hparts := readSegments_inj hs ht
  have hchars := congrArg (joinWith ',') hparts
  rw [joinWith_splitAtChar, joinWith_splitAtChar] at hchars
  exact String.toList_injective hchars

theorem Writes.ne_empty {s : String} {segments : List (String × String)} (h : Writes s segments) :
    s ≠ "" := by
  rintro rfl
  cases h

theorem Writes.ne_nil {s : String} {segments : List (String × String)} (h : Writes s segments) :
    segments ≠ [] := by
  rintro rfl
  obtain ⟨part, parts, hparts⟩ := List.exists_cons_of_ne_nil (splitAtChar_ne_nil ',' s.toList)
  unfold Writes at h
  rw [hparts] at h
  obtain ⟨segment, rest, -, -, hnil⟩ := readSegments_cons h
  cases hnil

theorem readSegments_comma (s t : String) {a : List (String × String)} (hs : Writes s a) :
    readSegments (splitAtChar ',' (s ++ "," ++ t).toList) =
      (readSegments (splitAtChar ',' t.toList)).map (a ++ ·) := by
  have hchars : (s ++ "," ++ t).toList = s.toList ++ ',' :: t.toList := by simp
  rw [hchars, splitAtChar_append, readSegments_append]
  unfold Writes at hs
  rw [hs]

end Address

end ServerDeploy
