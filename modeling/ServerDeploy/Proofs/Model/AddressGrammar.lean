import ServerDeploy.Proofs.Resource.Placement

/-! The grammar of address texts. A text can be read exactly when it lists segments with commas between
them, each a key and a value around one equals sign. What is read is what is written, and of any other
text the first part that is no segment is named. -/

namespace ServerDeploy

theorem splitAtChar_of_not_mem {sep : Char} {cs : List Char} (h : sep ∉ cs) :
    splitAtChar sep cs = [cs] := by
  induction cs with
  | nil => rfl
  | cons c cs ih =>
    have hc : c ≠ sep := fun hc => h (by simp [hc])
    have hcs : sep ∉ cs := fun hcs => h (by simp [hcs])
    simp [splitAtChar, hc, ih hcs]

/-- Splitting undoes joining, so that the parts of a text are determined by it. -/
theorem splitAtChar_joinWith {sep : Char} {parts : List (List Char)} (hne : parts ≠ [])
    (h : ∀ part ∈ parts, sep ∉ part) : splitAtChar sep (joinWith sep parts) = parts := by
  induction parts with
  | nil => exact absurd rfl hne
  | cons part parts ih =>
    have hpart := splitAtChar_of_not_mem (h part (by simp))
    cases parts with
    | nil => exact hpart
    | cons next parts =>
      have hrest := ih (by simp) fun p hp => h p (by simp [hp])
      have hjoin : joinWith sep (part :: next :: parts) =
          part ++ sep :: joinWith sep (next :: parts) := rfl
      rw [hjoin, splitAtChar_append, hpart, hrest, List.singleton_append]

namespace Address

/-- What may stand on either side of the equals sign. -/
def Label (s : String) : Prop := s ≠ "" ∧ ',' ∉ s.toList ∧ '=' ∉ s.toList

def Proper (segment : String × String) : Prop := Label segment.1 ∧ Label segment.2

def segmentText (segment : String × String) : List Char :=
  segment.1.toList ++ '=' :: segment.2.toList

def IsSegment (part : List Char) : Prop := ∃ segment, Proper segment ∧ part = segmentText segment

theorem toList_write (segments : Segments) :
    (write segments).toList = joinWith ',' (segments.map segmentText) := by
  have hjoin : ∀ parts : List (List Char), [','].intercalate parts = joinWith ',' parts := by
    intro parts
    induction parts with
    | nil => rfl
    | cons part parts ih => cases parts <;> simp_all [joinWith, List.intercalate]
  have hcomma : ",".toList = [','] := rfl
  unfold write
  rw [String.toList_intercalate, List.map_map, hcomma, hjoin]
  congr 1
  apply List.map_congr_left
  intro segment _
  simp [segmentText]

theorem readSegment?_segmentText {segment : String × String} (h : Proper segment) :
    readSegment? (segmentText segment) = some segment := by
  obtain ⟨key, value⟩ := segment
  obtain ⟨⟨hkey, -, hkeys⟩, hvalue, -, hvalues⟩ := h
  have hsplit : splitAtChar '=' (segmentText (key, value)) = [key.toList, value.toList] := by
    unfold segmentText
    rw [splitAtChar_append, splitAtChar_of_not_mem hkeys, splitAtChar_of_not_mem hvalues]
    rfl
  simp [readSegment?, hsplit, hkey, hvalue]

theorem proper_of_readSegment? {part : List Char} {segment : String × String}
    (h : readSegment? part = some segment) (hcomma : ',' ∉ part) : Proper segment := by
  obtain ⟨key, value⟩ := segment
  have htext := readSegment?_text h
  have hcommas : ',' ∉ key.toList ∧ ',' ∉ value.toList := by
    simpa [htext, not_or] using hcomma
  unfold readSegment? at h
  split at h
  · next k v hsplit =>
    have hequals : ∀ side ∈ [k, v], '=' ∉ side := by
      rw [← hsplit]
      exact fun _ hside => not_mem_of_mem_splitAtChar hside
    split at h
    · cases h
    · next hne =>
      simp only [Bool.or_eq_true, List.isEmpty_iff, not_or] at hne
      cases h
      simp only [String.toList_ofList] at hcommas
      simp [Proper, Label, hne, hcommas, hequals k (by simp), hequals v (by simp)]
  · cases h

theorem isSegment_iff {part : List Char} (hcomma : ',' ∉ part) :
    IsSegment part ↔ (readSegment? part).isSome = true := by
  constructor
  · rintro ⟨segment, hproper, rfl⟩
    rw [readSegment?_segmentText hproper]
    rfl
  · intro h
    obtain ⟨segment, hsegment⟩ := Option.isSome_iff_exists.1 h
    exact ⟨segment, proper_of_readSegment? hsegment hcomma, readSegment?_text hsegment⟩

theorem readSegments_segmentTexts {segments : Segments} (h : ∀ segment ∈ segments, Proper segment) :
    readSegments (segments.map segmentText) = .ok segments := by
  induction segments with
  | nil => rfl
  | cons segment segments ih =>
    have hrest := ih fun s hs => h s (by simp [hs])
    simp only [List.map_cons, readSegments, readSegment?_segmentText (h segment (by simp)), hrest]
    rfl

theorem readSegments_ok {parts : List (List Char)} {segments : Segments}
    (h : readSegments parts = .ok segments) (hcomma : ∀ part ∈ parts, ',' ∉ part) :
    (∀ segment ∈ segments, Proper segment) ∧ parts = segments.map segmentText := by
  induction parts generalizing segments with
  | nil =>
    cases h
    simp
  | cons part parts ih =>
    obtain ⟨segment, rest, hsegment, hrest, rfl⟩ := readSegments_cons h
    obtain ⟨hproper, htexts⟩ := ih hrest fun p hp => hcomma p (by simp [hp])
    have hfirst := proper_of_readSegment? hsegment (hcomma part (by simp))
    have htext : part = segmentText segment := readSegment?_text hsegment
    exact ⟨by simpa [hfirst] using hproper, by simp [← htext, ← htexts]⟩

theorem readSegments_error {parts : List (List Char)} {bad : String}
    (h : readSegments parts = .error bad) : ∃ before after, parts = before ++ bad.toList :: after ∧
      (∀ part ∈ before, (readSegment? part).isSome = true) ∧ readSegment? bad.toList = none := by
  induction parts with
  | nil => cases h
  | cons part parts ih =>
    unfold readSegments at h
    split at h
    · next hpart =>
      cases h
      exact ⟨[], parts, by simp, by simp, by simpa using hpart⟩
    · next segment hpart =>
      cases hrest : readSegments parts with
      | ok segments =>
        rw [hrest] at h
        cases h
      | error part' =>
        rw [hrest] at h
        cases h
        obtain ⟨before, after, rfl, hbefore, hbad⟩ := ih hrest
        exact ⟨part :: before, after, rfl, by simpa [hpart] using hbefore, hbad⟩

theorem writes_iff {s : String} {segments : Segments} : Writes s segments ↔
    segments ≠ [] ∧ (∀ segment ∈ segments, Proper segment) ∧ s = write segments := by
  constructor
  · intro h
    have hcomma : ∀ part ∈ splitAtChar ',' s.toList, ',' ∉ part :=
      fun _ hpart => not_mem_of_mem_splitAtChar hpart
    obtain ⟨hproper, htexts⟩ := readSegments_ok h hcomma
    refine ⟨h.ne_nil, hproper, String.toList_injective ?_⟩
    rw [toList_write, ← htexts, joinWith_splitAtChar]
  · rintro ⟨hne, hproper, rfl⟩
    have hcomma : ∀ part ∈ segments.map segmentText, ',' ∉ part := by
      intro part hpart
      obtain ⟨segment, hsegment, rfl⟩ := List.mem_map.1 hpart
      obtain ⟨⟨-, hkey, -⟩, -, hvalue, -⟩ := hproper segment hsegment
      simp [segmentText, hkey, hvalue]
    unfold Writes
    rw [toList_write, splitAtChar_joinWith (by simpa using hne) hcomma]
    exact readSegments_segmentTexts hproper

theorem parse_eq_ok_iff {profile : Option String} {s : String} {a : Address} :
    parse profile s = .ok a ↔ ∃ segments, Writes s segments ∧ a = inProfile profile segments := by
  unfold parse Writes inProfile
  cases readSegments (splitAtChar ',' s.toList) with
  | error part => simp [Except.map]
  | ok segments => simp [Except.map, eq_comm]

theorem parse_error {profile : Option String} {s part : String} (h : parse profile s = .error part) :
    ∃ before after, s.toList = joinWith ',' (before ++ part.toList :: after) ∧
      (∀ p ∈ before ++ part.toList :: after, ',' ∉ p) ∧
      (∀ p ∈ before, IsSegment p) ∧ ¬IsSegment part.toList := by
  have hread : readSegments (splitAtChar ',' s.toList) = .error part := by
    unfold parse at h
    cases hread : readSegments (splitAtChar ',' s.toList) with
    | error part' =>
      rw [hread] at h
      cases h
      rfl
    | ok segments =>
      rw [hread] at h
      cases h
  obtain ⟨before, after, hsplit, hbefore, hpart⟩ := readSegments_error hread
  have hcomma : ∀ p ∈ before ++ part.toList :: after, ',' ∉ p := by
    rw [← hsplit]
    exact fun _ hp => not_mem_of_mem_splitAtChar hp
  refine ⟨before, after, ?_, hcomma, fun p hp => ?_, ?_⟩
  · rw [← hsplit, joinWith_splitAtChar]
  · exact (isSegment_iff (hcomma p (by simp [hp]))).2 (hbefore p hp)
  · rw [isSegment_iff (hcomma part.toList (by simp)), hpart]
    simp

theorem effectiveAddress_of_ne {base own : String} (hbase : base ≠ "") (hown : own ≠ "")
    (hne : own ≠ base) :
    Resource.effectiveAddress (some base) (some own) = .ok (base ++ "," ++ own) := by
  simp [Resource.effectiveAddress, Resource.addressOrNone_some hbase,
    Resource.addressOrNone_some hown, hne]

/-- A text is read exactly when it lists proper segments; these, behind the profile, are the address,
and written back they are the text. Otherwise the error is the first part that is no segment. Read
after a different base, a text adds its segments to those of the base. -/
theorem parse_grammar (profile : Option String) (s : String) :
    ((∃ a, parse profile s = .ok a) ↔
      ∃ segments, segments ≠ [] ∧ (∀ segment ∈ segments, Proper segment) ∧ s = write segments) ∧
    (∀ a, parse profile s = .ok a → ∃ segments, a = inProfile profile segments ∧
      write segments = s ∧ parse profile (write segments) = .ok a) ∧
    (∀ part, parse profile s = .error part →
      ∃ before after, s.toList = joinWith ',' (before ++ part.toList :: after) ∧
        (∀ p ∈ before ++ part.toList :: after, ',' ∉ p) ∧
        (∀ p ∈ before, IsSegment p) ∧ ¬IsSegment part.toList) ∧
    ∀ own a b, parse none s = .ok a → parse none own = .ok b → own ≠ s →
      ∃ text, Resource.effectiveAddress (some s) (some own) = .ok text ∧
        parse profile text = .ok (inProfile profile (a.segments ++ b.segments)) := by
  refine ⟨⟨?_, ?_⟩, ?_, fun part => parse_error, ?_⟩
  · rintro ⟨a, ha⟩
    obtain ⟨segments, hwrites, -⟩ := parse_eq_ok_iff.1 ha
    exact ⟨segments, writes_iff.1 hwrites⟩
  · rintro ⟨segments, h⟩
    exact ⟨_, parse_eq_ok_iff.2 ⟨segments, writes_iff.2 h, rfl⟩⟩
  · intro a ha
    obtain ⟨segments, hwrites, rfl⟩ := parse_eq_ok_iff.1 ha
    obtain ⟨-, -, rfl⟩ := writes_iff.1 hwrites
    exact ⟨segments, rfl, rfl, ha⟩
  · intro own a b ha hb hne
    obtain ⟨above, habove, rfl⟩ := parse_eq_ok_iff.1 ha
    obtain ⟨below, hbelow, rfl⟩ := parse_eq_ok_iff.1 hb
    have hboth : Writes (s ++ "," ++ own) (above ++ below) := by
      unfold Writes at hbelow ⊢
      rw [readSegments_comma s own habove, hbelow]
      rfl
    refine ⟨s ++ "," ++ own, effectiveAddress_of_ne habove.ne_empty hbelow.ne_empty hne, ?_⟩
    exact parse_eq_ok_iff.2 ⟨above ++ below, hboth, rfl⟩

end Address

end ServerDeploy
