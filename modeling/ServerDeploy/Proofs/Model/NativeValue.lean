import ServerDeploy.Model.Property
import ServerDeploy.Proofs.Json.Members
import ServerDeploy.Proofs.TypedLiteral.Values

/-! Native values of properties. Such a value is handed on as the literal of its JSON text and comes
back when the literal is resolved, unless a text in it has a character that is written as an escape
the literal reader does not know; that text is then changed without an error. -/

namespace ServerDeploy

open TypedLiteral

namespace Document

mutual

/-- Truth values, integers that are not too long, texts, lists and mappings from different texts. -/
def Native : Document → Prop
  | .scalar (.bool _) | .scalar (.text _) => True
  | .scalar (.int n) => isOversize n = false
  | .scalar _ => False
  | .list items => NativeItems items
  | .map entries => (entries.map (·.1)).Nodup ∧ NativeEntries entries

def NativeItems : List Document → Prop
  | [] => True
  | d :: rest => Native d ∧ NativeItems rest

def NativeEntries : List (Scalar × Document) → Prop
  | [] => True
  | (.text _, d) :: rest => Native d ∧ NativeEntries rest
  | _ :: _ => False

end

mutual

def texts : Document → List String
  | .scalar (.text s) => [s]
  | .scalar _ => []
  | .list items => itemTexts items
  | .map entries => entryTexts entries

def itemTexts : List Document → List String
  | [] => []
  | d :: rest => texts d ++ itemTexts rest

def entryTexts : List (Scalar × Document) → List String
  | [] => []
  | (k, d) :: rest => texts (.scalar k) ++ texts d ++ entryTexts rest

end

/-- A document whose texts the literal reader reads as they are. -/
def Plain (d : Document) : Prop := ∀ s ∈ d.texts, PlainText s

mutual

theorem toJson_native : ∀ d : Document, d.Native →
    ∃ j, d.toJson = .ok j ∧ Written j ∧ ofJson j = d
  | .scalar (.bool b), _ => ⟨.bool b, rfl, trivial, rfl⟩
  | .scalar (.text s), _ => ⟨.str s, rfl, trivial, rfl⟩
  | .scalar (.int n), h => by
    have hn : isOversize n = false := h
    exact ⟨.int n, by simp [toJson, Scalar.toJson, hn], hn, rfl⟩
  | .scalar .null, h | .scalar (.num _), h | .scalar (.date _), h | .scalar (.stamp _), h
  | .scalar (.bytes _), h => h.elim
  | .list items, h => by
    obtain ⟨js, hjs, hw, heq⟩ := toJsonItems_native items h
    exact ⟨.arr js, by rw [toJson, hjs]; rfl, hw, by rw [ofJson, heq]⟩
  | .map entries, h => by
    obtain ⟨ms, hms, hw, heq⟩ := toJsonMembers_native entries h.2
    exact ⟨.obj ms, by rw [toJson, hms]; rfl, hw, by rw [ofJson, heq]⟩

theorem toJsonItems_native : ∀ items : List Document, NativeItems items →
    ∃ js, toJsonItems items = .ok js ∧ WrittenItems js ∧ ofJsonItems js = items
  | [], _ => ⟨[], rfl, trivial, rfl⟩
  | d :: rest, h => by
    obtain ⟨j, hj, hw, heq⟩ := toJson_native d h.1
    obtain ⟨js, hjs, hws, heqs⟩ := toJsonItems_native rest h.2
    exact ⟨j :: js, by rw [toJsonItems, hj, hjs]; rfl, ⟨hw, hws⟩, by rw [ofJsonItems, heq, heqs]⟩

theorem toJsonMembers_native : ∀ entries : List (Scalar × Document), NativeEntries entries →
    ∃ ms, toJsonMembers entries = .ok ms ∧ WrittenMembers ms ∧ ofJsonMembers ms = entries
  | [], _ => ⟨[], rfl, trivial, rfl⟩
  | (.text s, d) :: rest, h => by
    obtain ⟨j, hj, hw, heq⟩ := toJson_native d h.1
    obtain ⟨ms, hms, hws, heqs⟩ := toJsonMembers_native rest h.2
    refine ⟨(s, j) :: ms, ?_, ⟨hw, hws⟩, by rw [ofJsonMembers, heq, heqs]⟩
    rw [toJsonMembers, hj, hms]
    rfl
  | (.null, _) :: _, h | (.bool _, _) :: _, h | (.int _, _) :: _, h | (.num _, _) :: _, h
  | (.date _, _) :: _, h | (.stamp _, _) :: _, h | (.bytes _, _) :: _, h => h.elim

end

theorem mem_entryTexts {members : List (String × Json)} {s : String} :
    s ∈ entryTexts (ofJsonMembers members) ↔
      ∃ m ∈ members, s = m.1 ∨ s ∈ (ofJson m.2).texts := by
  induction members with
  | nil => simp [ofJsonMembers, entryTexts]
  | cons m members ih =>
    obtain ⟨k, v⟩ := m
    simp [ofJsonMembers, entryTexts, texts, ih, or_assoc]

theorem plain_obj {members : List (String × Json)} :
    (ofJson (.obj members)).Plain ↔ ∀ m ∈ members, PlainText m.1 ∧ (ofJson m.2).Plain := by
  unfold Plain
  simp only [ofJson, texts, mem_entryTexts]
  constructor
  · intro h m hm
    exact ⟨h m.1 ⟨m, hm, .inl rfl⟩, fun s hs => h s ⟨m, hm, .inr hs⟩⟩
  · rintro h s ⟨m, hm, rfl | hs⟩
    · exact (h m hm).1
    · exact (h m hm).2 s hs

theorem plain_arr {items : List Json} :
    (ofJson (.arr items)).Plain ↔ ∀ v ∈ items, (ofJson v).Plain := by
  unfold Plain
  simp only [ofJson, texts]
  induction items with
  | nil => simp [ofJsonItems, itemTexts]
  | cons v items ih =>
    simp only [ofJsonItems, itemTexts, List.mem_append, List.mem_cons]
    constructor
    · rintro h u (rfl | hu)
      · exact fun s hs => h s (.inl hs)
      · exact ih.1 (fun s hs => h s (.inr hs)) u hu
    · rintro h s (hs | hs)
      · exact h v (.inl rfl) s hs
      · exact ih.2 (fun u hu => h u (.inr hu)) s hs

end Document

namespace TypedLiteral

open Document

mutual

/-- Whatever is read back has no characters that the reader gets wrong. -/
theorem plain_rereadValue : ∀ v : Json, (ofJson (rereadValue v)).Plain
  | .null | .bool _ | .int _ | .num _ => by simp [rereadValue, ofJson, Plain, texts]
  | .str s => by simpa [rereadValue, ofJson, Plain, texts] using plainText_rereadText s
  | .arr items => plain_arr.2 (plain_rereadItems items)
  | .obj members => plain_obj.2 fun _ hm =>
    (Members.mem_setAll hm).elim (fun h => by simp at h) (plain_rereadMembers members _)

theorem plain_rereadItems : ∀ items : List Json, ∀ v ∈ rereadItems items, (ofJson v).Plain
  | [] => by simp [rereadItems]
  | v :: rest => by
    intro u hu
    rcases List.mem_cons.1 hu with heq | hu
    · rw [heq]
      exact plain_rereadValue v
    · exact plain_rereadItems rest u hu

theorem plain_rereadMembers : ∀ members : List (String × Json), ∀ m ∈ rereadMembers members,
    PlainText m.1 ∧ (ofJson m.2).Plain
  | [] => by simp [rereadMembers]
  | (k, v) :: rest => by
    intro m hm
    rcases List.mem_cons.1 hm with heq | hm
    · rw [heq]
      exact ⟨plainText_rereadText k, plain_rereadValue v⟩
    · exact plain_rereadMembers rest m hm

end

theorem names_ofJsonMembers (members : List (String × Json)) :
    (ofJsonMembers members).map (·.1) = (members.map (·.1)).map Scalar.text := by
  induction members with
  | nil => rfl
  | cons m members ih =>
    obtain ⟨k, v⟩ := m
    simp [ofJsonMembers, ih]

mutual

theorem rereadValue_of_plain : ∀ v : Json, (ofJson v).Native → (ofJson v).Plain → rereadValue v = v
  | .null, _, _ | .bool _, _, _ | .int _, _, _ | .num _, _, _ => rfl
  | .str s, _, h => by rw [rereadValue, rereadText_of_plain (h s (by simp [ofJson, texts]))]
  | .arr items, hn, h => by rw [rereadValue, rereadItems_of_plain items hn (plain_arr.1 h)]
  | .obj members, hn, h => by
    have hnames := hn.1
    rw [names_ofJsonMembers] at hnames
    have hdistinct : (members.map (·.1)).Nodup :=
      List.Pairwise.of_map Scalar.text (fun _ _ hne heq => hne (congrArg Scalar.text heq)) hnames
    have hset : Members.setAll [] members = members :=
      Members.setAll_of_nodup (by simpa using hdistinct)
    rw [rereadValue, rereadMembers_of_plain members hn.2 (plain_obj.1 h), hset]

theorem rereadItems_of_plain : ∀ items : List Json, NativeItems (ofJsonItems items) →
    (∀ v ∈ items, (ofJson v).Plain) → rereadItems items = items
  | [], _, _ => rfl
  | v :: rest, hn, h => by
    rw [rereadItems, rereadValue_of_plain v hn.1 (h v (by simp)),
      rereadItems_of_plain rest hn.2 fun u hu => h u (by simp [hu])]

theorem rereadMembers_of_plain : ∀ members : List (String × Json),
    NativeEntries (ofJsonMembers members) →
      (∀ m ∈ members, PlainText m.1 ∧ (ofJson m.2).Plain) → rereadMembers members = members
  | [], _, _ => rfl
  | (k, v) :: rest, hn, h => by
    rw [rereadMembers, rereadText_of_plain (h (k, v) (by simp)).1,
      rereadValue_of_plain v hn.1 (h (k, v) (by simp)).2,
      rereadMembers_of_plain rest hn.2 fun m hm => h m (by simp [hm])]

end

end TypedLiteral

namespace PropertyValue

theorem ofDocument_native {d : Document} {j : Json} (hd : d.toJson = .ok j) (hn : d.Native)
    (htext : ∀ s, d ≠ .text s) : ofDocument d = .ok (.literal j.write) := by
  unfold ofDocument
  split
  · exact hn.elim
  · next s => exact absurd rfl (htext s)
  · rw [hd]
    rfl

/-- Resolving a native value always gives a value. It is what was configured exactly when all texts
are plain, since the texts that are read back always are. -/
theorem resolve_native {d : Document} (hn : d.Native) (htext : ∀ s, d ≠ .text s) :
    ∃ j, d.toJson = .ok j ∧ ofDocument d = .ok (.literal j.write) ∧
      (literal j.write).resolve = .ok (rereadValue j) ∧
      (Document.ofJson (rereadValue j)).Plain ∧
      (Document.ofJson (rereadValue j) = d ↔ d.Plain) := by
  obtain ⟨j, hj, hw, rfl⟩ := Document.toJson_native d hn
  refine ⟨j, hj, ofDocument_native hj hn htext, ?_, plain_rereadValue j, fun h => ?_, fun h => ?_⟩
  · simp only [resolve, read_write hw]
    rfl
  · rw [← h]
    exact plain_rereadValue j
  · rw [rereadValue_of_plain j hn h]

def accented : Document := .list [.text "é"]

/-- The letter is written as an escape and comes back as the letters of the escape. -/
theorem resolve_native_accented :
    (accented.Native ∧ ∀ s, accented ≠ .text s) ∧ ¬accented.Plain ∧
      ofDocument accented = .ok (.literal (Json.write (.arr [.str "é"]))) ∧
      (literal (Json.write (.arr [.str "é"]))).resolve = .ok (.arr [.str "u00e9"]) ∧
      Document.ofJson (.arr [.str "u00e9"]) ≠ accented := by
  have hn : accented.Native := by
    simp [accented, Document.Native, Document.NativeItems, Document.text]
  have htext : ∀ s, accented ≠ .text s := by simp [accented, Document.text]
  have hplain : ¬accented.Plain := by
    intro h
    have hletter := h "é" (by simp [accented, Document.text, Document.texts, Document.itemTexts])
    exact absurd (hletter 'é' (by decide)) (by decide)
  have hreread : rereadValue (.arr [.str "é"]) = .arr [.str "u00e9"] := by cbv
  obtain ⟨j, hj, hof, hresolve, -, hiff⟩ := resolve_native hn htext
  obtain rfl : Json.arr [.str "é"] = j := Except.ok.inj hj
  rw [hreread] at hresolve hiff
  exact ⟨⟨hn, htext⟩, hplain, hof, hresolve, fun h => hplain (hiff.1 h)⟩

end PropertyValue

end ServerDeploy
