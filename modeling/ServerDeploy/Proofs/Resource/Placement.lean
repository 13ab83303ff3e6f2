import ServerDeploy.Proofs.Model.AddressText
import ServerDeploy.Resource.Composition

/-! Where resources stand. Address texts are combined and read again at each level of a tree; what
they write is the segments of the base with those of the resource after them. -/

namespace ServerDeploy

abbrev Segments := List (String × String)

namespace Address

def segmentsOf? (s : String) : Option Segments :=
  (readSegments (splitAtChar ',' s.toList)).toOption

def inProfile (profile : Option String) (segments : Segments) : Address :=
  ⟨(profile.map fun p => (profileKey, p)).toList ++ segments⟩

theorem inProfile_none (segments : Segments) : inProfile none segments = ⟨segments⟩ := rfl

theorem segmentsOf?_eq_some {s : String} {segments : Segments} :
    segmentsOf? s = some segments ↔ Writes s segments := by
  unfold segmentsOf? Writes
  cases readSegments (splitAtChar ',' s.toList) <;> simp [Except.toOption]

theorem segmentsOf?_comma {s t : String} {a : Segments} (hs : Writes s a) :
    segmentsOf? (s ++ "," ++ t) = (segmentsOf? t).map (a ++ ·) := by
  unfold segmentsOf?
  rw [readSegments_comma s t hs]
  cases readSegments (splitAtChar ',' t.toList) <;> rfl

theorem segmentsOf?_unreadable_comma {s : String} (t : String) (hs : segmentsOf? s = none) :
    segmentsOf? (s ++ "," ++ t) = none := by
  have hchars : (s ++ "," ++ t).toList = s.toList ++ ',' :: t.toList := by simp
  unfold segmentsOf? at hs ⊢
  rw [hchars, splitAtChar_append, readSegments_append]
  cases hr : readSegments (splitAtChar ',' s.toList) with
  | error part => rfl
  | ok segments =>
    rw [hr] at hs
    cases hs

theorem parse_eq (profile : Option String) (s : String) :
    match segmentsOf? s with
    | some segments => parse profile s = .ok (inProfile profile segments)
    | none => ∃ part, parse profile s = .error part := by
  unfold segmentsOf? parse inProfile
  cases readSegments (splitAtChar ',' s.toList) with
  | error part => exact ⟨part, rfl⟩
  | ok segments => rfl

@[simp] theorem child?_inProfile (profile : Option String) (above : Segments) (last : String × String) :
    (inProfile profile (above ++ [last])).child? = some last := by
  simp [inProfile, AddressOf.child?, ← List.append_assoc]

@[simp] theorem parent?_inProfile (profile : Option String) (above : Segments)
    (last : String × String) :
    (inProfile profile (above ++ [last])).parent? = some (inProfile profile above) := by
  simp [inProfile, AddressOf.parent?, ← List.append_assoc]

end Address

open Address

namespace Resource

/-- Where a resource with the given address of its own stands below others. Without one, or with the
same as theirs, it stands where they stand. -/
def below? (inherited : Segments) (own : Option String) : Option Segments :=
  match addressOrNone own with
  | none => some inherited
  | some s => (segmentsOf? s).map fun own =>
    if own = inherited then inherited else inherited ++ own

def place? (base own : Option String) : Option Segments :=
  match addressOrNone base with
  | none => (addressOrNone own).bind segmentsOf?
  | some s => (segmentsOf? s).bind fun inherited => below? inherited own

/-- A placement that is right: the text and the address of the segments, and where there are none an
error about the text. -/
def Placed (profile : Option String) (segments? : Option Segments) (r : Except Fault (String × Address)) :
    Prop :=
  match segments? with
  | some segments => ∃ text, Writes text segments ∧ r = .ok (text, inProfile profile segments)
  | none => r = .error (.deploy .missingAddress) ∨
    ∃ part, r = .error (.deploy (.addressSegment part))

theorem addressOrNone_some {s : String} (hs : s ≠ "") : addressOrNone (some s) = some s := by
  have hempty : s.isEmpty = false := by simpa using hs
  simp [addressOrNone, hempty]

theorem placed_text (profile base own : Option String) {text : String}
    (h : effectiveAddress base own = .ok text) :
    Placed profile (segmentsOf? text) (placeAt profile base own) := by
  have hparse := parse_eq profile text
  simp only [placeAt, h]
  cases hs : segmentsOf? text with
  | none =>
    rw [hs] at hparse
    obtain ⟨part, hpart⟩ := hparse
    exact .inr ⟨part, by simp only [hpart]⟩
  | some segments =>
    rw [hs] at hparse
    exact ⟨text, segmentsOf?_eq_some.1 hs, by simp only [hparse]⟩

theorem placeAt_placed (profile base own : Option String) :
    Placed profile (place? base own) (placeAt profile base own) := by
  unfold place?
  cases hbase : addressOrNone base with
  | none =>
    cases hown : addressOrNone own with
    | none => exact .inl (by simp [placeAt, effectiveAddress, hbase, hown])
    | some s => exact placed_text profile base own (by simp [effectiveAddress, hbase, hown])
  | some s =>
    cases hown : addressOrNone own with
    | none =>
      have heffective : effectiveAddress base own = .ok s := by
        simp [effectiveAddress, hbase, hown]
      have h := placed_text profile base own heffective
      cases hs : segmentsOf? s with
      | none => simpa [hs] using h
      | some inherited => simpa [hs, below?, hown] using h
    | some t =>
      by_cases hst : t = s
      · subst hst
        have heffective : effectiveAddress base own = .ok t := by
          simp [effectiveAddress, hbase, hown]
        have h := placed_text profile base own heffective
        cases hs : segmentsOf? t with
        | none => simpa [hs] using h
        | some inherited => simpa [hs, below?, hown] using h
      · have heffective : effectiveAddress base own = .ok (s ++ "," ++ t) := by
          simp [effectiveAddress, hbase, hown, hst]
        have h := placed_text profile base own heffective
        cases hs : segmentsOf? s with
        | none => simpa [hs, segmentsOf?_unreadable_comma t hs] using h
        | some inherited =>
          rw [segmentsOf?_comma (segmentsOf?_eq_some.1 hs)] at h
          cases ht : segmentsOf? t with
          | none => simpa [ht, below?, hown] using h
          | some own' =>
            have hne : own' ≠ inherited := by
              rintro rfl
              exact hst ((segmentsOf?_eq_some.1 ht).inj (segmentsOf?_eq_some.1 hs))
            simpa [hs, ht, below?, hown, hne] using h

theorem place?_of_writes {text : String} {segments : Segments} (h : Writes text segments)
    (own : Option String) : place? (some text) own = below? segments own := by
  simp [place?, addressOrNone_some h.ne_empty, segmentsOf?_eq_some.2 h]

end Resource

end ServerDeploy
