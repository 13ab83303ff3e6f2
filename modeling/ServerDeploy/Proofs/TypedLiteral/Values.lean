import ServerDeploy.Document.Json
import ServerDeploy.Proofs.TypedLiteral.Steps

/-! Written values as the literal reader sees them. Lists and objects come back item by item; the
members of an object are set one after the other, under the names that were read. -/

namespace ServerDeploy

namespace TypedLiteral

mutual

/-- Values that are written in full: truth values, integers that are not too long, texts, lists and
objects. -/
def Written : Json → Prop
  | .bool _ | .str _ => True
  | .int n => isOversize n = false
  | .arr items => WrittenItems items
  | .obj members => WrittenMembers members
  | .null | .num _ => False

def WrittenItems : List Json → Prop
  | [] => True
  | v :: rest => Written v ∧ WrittenItems rest

def WrittenMembers : List (String × Json) → Prop
  | [] => True
  | (_, v) :: rest => Written v ∧ WrittenMembers rest

end

mutual

def rereadValue : Json → Json
  | .str s => .str (rereadText s)
  | .arr items => .arr (rereadItems items)
  | .obj members => .obj (Members.setAll [] (rereadMembers members))
  | v => v

def rereadItems : List Json → List Json
  | [] => []
  | v :: rest => rereadValue v :: rereadItems rest

def rereadMembers : List (String × Json) → List (String × Json)
  | [] => []
  | (k, v) :: rest => (rereadText k, rereadValue v) :: rereadMembers rest

end

theorem value_text (depth : Nat) (s : String) (rest : List Char) :
    value (depth + 1) ((Json.stringLiteral s).toList ++ rest) = .ok (.str (rereadText s), rest) := by
  have hstring := string_stringLiteral s rest
  rw [toList_stringLiteral, List.cons_append] at hstring ⊢
  exact value_string hstring

theorem key_stringLiteral (s : String) (rest : List Char) :
    key ((Json.stringLiteral s).toList ++ rest) = .ok (rereadText s, rest) := by
  have hstring := string_stringLiteral s rest
  rw [toList_stringLiteral, List.cons_append] at hstring ⊢
  exact key_string hstring

theorem value_int (depth : Nat) {n : Int} (hn : isOversize n = false) {rest : List Char}
    (h : Stops rest) :
    value (depth + 1) ((toString n).toList ++ rest) = .ok (.int n, rest) := by
  have hbound : n.natAbs < 10 ^ maxIntegerDigits := Nat.lt_of_not_le (of_decide_eq_false hn)
  obtain ⟨hplus, hminus⟩ := number_digits hbound h
  rw [Int.toString_eq_repr, Int.repr_eq_if]
  split
  · next hpos =>
    have habs : (n.natAbs : Int) = n := Int.natAbs_of_nonneg hpos
    have htoNat : n.toNat = n.natAbs := by omega
    obtain ⟨c, cs, hcs, hc⟩ := exists_toDigits n.natAbs
    rw [Nat.toList_repr, htoNat]
    rw [hcs] at hplus ⊢
    rw [List.cons_append] at hplus ⊢
    rw [value_number depth (.inr (isDecimalDigit_of_isDigit hc)), hplus, habs]
  · next hneg =>
    have habs : -(n.natAbs : Int) = n := by omega
    have htoNat : (-n).toNat = n.natAbs := by omega
    rw [String.toList_append, Nat.toList_repr, htoNat]
    change value (depth + 1) ('-' :: (Nat.toDigits 10 n.natAbs ++ rest)) = _
    rw [value_number depth (.inl rfl), hminus, habs]

def itemsText (items : List Json) : List Char := (", ".intercalate (Json.writeItems items)).toList

def membersText (members : List (String × Json)) : List Char :=
  (", ".intercalate (Json.writeMembers members)).toList

theorem toList_write_arr (items : List Json) :
    (Json.arr items).write.toList = '[' :: (itemsText items ++ [']']) := by
  change (enclose "[" "]" (Json.writeItems items)).toList = _
  simp [enclose, itemsText]

theorem toList_write_obj (members : List (String × Json)) :
    (Json.obj members).write.toList = '\x7b' :: (membersText members ++ ['\x7d']) := by
  change (enclose "\x7b" "\x7d" (Json.writeMembers members)).toList = _
  simp [enclose, membersText]

theorem toList_joined (part next : String) (rest : List String) :
    (", ".intercalate (part :: next :: rest)).toList =
      part.toList ++ ',' :: ' ' :: (", ".intercalate (next :: rest)).toList := by
  simp

theorem itemsText_singleton (v : Json) : itemsText [v] = v.write.toList :=
  congrArg String.toList (String.intercalate_singleton)

theorem itemsText_cons (v u : Json) (rest : List Json) :
    itemsText (v :: u :: rest) = v.write.toList ++ ',' :: ' ' :: itemsText (u :: rest) :=
  toList_joined v.write u.write (Json.writeItems rest)

theorem toList_member (k : String) (v : Json) (rest : List Char) :
    (Json.stringLiteral k ++ ": " ++ v.write).toList ++ rest =
      (Json.stringLiteral k).toList ++ ':' :: ' ' :: (v.write.toList ++ rest) := by
  simp

theorem membersText_singleton (k : String) (v : Json) :
    membersText [(k, v)] = (Json.stringLiteral k).toList ++ ':' :: ' ' :: v.write.toList := by
  have hmember := toList_member k v []
  rw [List.append_nil, List.append_nil] at hmember
  exact (congrArg String.toList String.intercalate_singleton).trans hmember

theorem membersText_cons (k : String) (v : Json) (m : String × Json) (rest : List (String × Json)) :
    membersText ((k, v) :: m :: rest) = (Json.stringLiteral k).toList ++
      ':' :: ' ' :: (v.write.toList ++ ',' :: ' ' :: membersText (m :: rest)) :=
  (toList_joined (Json.stringLiteral k ++ ": " ++ v.write) (Json.stringLiteral m.1 ++ ": " ++ m.2.write)
    (Json.writeMembers rest)).trans (toList_member k v _)

theorem exists_write {v : Json} (h : Written v) :
    ∃ c cs, v.write.toList = c :: cs ∧ isBlank c = false ∧ c ≠ ']' := by
  cases v with
  | null => exact h.elim
  | num x => exact h.elim
  | bool b => cases b <;> exact ⟨_, _, rfl, by decide, by decide⟩
  | str s => exact ⟨_, _, toList_stringLiteral s, by decide, by decide⟩
  | arr items => exact ⟨_, _, toList_write_arr items, by decide, by decide⟩
  | obj members => exact ⟨_, _, toList_write_obj members, by decide, by decide⟩
  | int n =>
    change ∃ c cs, (toString n).toList = _ ∧ _
    rw [Int.toString_eq_repr, Int.repr_eq_if]
    split
    · obtain ⟨c, cs, hcs, hc⟩ := exists_toDigits n.toNat
      refine ⟨c, cs, by rw [Nat.toList_repr, hcs], isBlank_of_isDigit hc, ?_⟩
      rintro rfl
      cases hc
    · exact ⟨'-', (-n).toNat.repr.toList, by simp, by decide, by decide⟩

/-- Reading the value at any place where a value may end gives the value reread, if there is enough
depth for the length of the text. -/
def ReadsBack (v : Json) : Prop :=
  ∀ (depth : Nat) (rest : List Char), Delimited rest → v.write.toList.length ≤ depth →
    value depth (v.write.toList ++ rest) = .ok (rereadValue v, rest)

theorem readsBack_of_succ {v : Json} (hv : Written v)
    (h : ∀ (depth : Nat) (rest : List Char), Delimited rest → v.write.toList.length ≤ depth + 1 →
      value (depth + 1) (v.write.toList ++ rest) = .ok (rereadValue v, rest)) : ReadsBack v := by
  intro depth rest hrest hdepth
  cases depth with
  | zero =>
    obtain ⟨c, cs, hcs, -, -⟩ := exists_write hv
    simp [hcs] at hdepth
  | succ depth => exact h depth rest hrest hdepth

theorem listItems_write {items : List Json} (hne : items ≠ [])
    (h : ∀ v ∈ items, ReadsBack v) {depth : Nat} (rest : List Char)
    (hdepth : (itemsText items).length < depth) :
    listItems depth (itemsText items ++ ']' :: rest) = .ok (rereadItems items, rest) := by
  induction items generalizing depth with
  | nil => exact absurd rfl hne
  | cons v vs ih =>
    obtain ⟨depth, rfl⟩ : ∃ d, depth = d + 1 := ⟨depth - 1, by omega⟩
    cases vs with
    | nil =>
      rw [itemsText_singleton] at hdepth ⊢
      exact listItems_last allBlank_nil
        (h v (by simp) depth _ (delimited_cons (by simp) rest) (by omega))
    | cons u vs =>
      rw [itemsText_cons] at hdepth ⊢
      simp only [List.length_append, List.length_cons] at hdepth
      rw [List.append_assoc, List.cons_append, List.cons_append]
      exact listItems_more allBlank_nil
        (h v (by simp) depth _ (delimited_cons (by simp) _) (by omega))
        ((listItems_blanks allBlank_space depth _).trans
          (ih (by simp) (fun x hx => h x (by simp [hx])) (by omega)))

theorem objectMembers_write {members : List (String × Json)} (hne : members ≠ [])
    (h : ∀ m ∈ members, ReadsBack m.2) {depth : Nat} (before : Members) (rest : List Char)
    (hdepth : (membersText members).length < depth) :
    objectMembers depth before (membersText members ++ '\x7d' :: rest) =
      .ok (Members.setAll before (rereadMembers members), rest) := by
  -- the members read so far belong to the statement: a key that comes again keeps its place
  induction members generalizing depth before with
  | nil => exact absurd rfl hne
  | cons m ms ih =>
    obtain ⟨k, v⟩ := m
    obtain ⟨depth, rfl⟩ : ∃ d, depth = d + 1 := ⟨depth - 1, by omega⟩
    have hv : ReadsBack v := h (k, v) (by simp)
    have spaced := value_blanks allBlank_space depth
    cases ms with
    | nil =>
      rw [membersText_singleton] at hdepth ⊢
      simp only [List.length_append, List.length_cons] at hdepth
      rw [List.append_assoc, List.cons_append, List.cons_append]
      exact objectMembers_last (key_stringLiteral k _) rfl allBlank_nil
        ((spaced _).trans (hv depth _ (delimited_cons (by simp) rest) (by omega)))
    | cons m ms =>
      rw [membersText_cons] at hdepth ⊢
      simp only [List.length_append, List.length_cons] at hdepth
      simp only [List.append_assoc, List.cons_append]
      exact objectMembers_more (key_stringLiteral k _) rfl allBlank_nil
        ((spaced _).trans (hv depth _ (delimited_cons (by simp) _) (by omega)))
        ((objectMembers_blanks allBlank_space depth _ _).trans
          (ih (by simp) (fun x hx => h x (by simp [hx])) _ (by omega)))

theorem readsBack_arr {items : List Json} (hw : WrittenItems items)
    (h : ∀ v ∈ items, ReadsBack v) : ReadsBack (.arr items) := by
  refine readsBack_of_succ hw fun depth rest _ hdepth => ?_
  rw [toList_write_arr] at hdepth ⊢
  simp only [List.length_append, List.length_cons] at hdepth
  rw [List.cons_append, List.append_assoc]
  cases items with
  | nil => exact value_empty_arr depth allBlank_nil rest
  | cons v vs =>
    refine value_arr ?_ (listItems_write (by simp) h rest (by omega))
    obtain ⟨c, cs, hcs, hblank, hclose⟩ := exists_write hw.1
    cases vs with
    | nil =>
      rw [itemsText_singleton, hcs]
      exact begins_cons hblank hclose _
    | cons u vs =>
      rw [itemsText_cons, hcs]
      exact begins_cons hblank hclose _

theorem readsBack_obj {members : List (String × Json)} (hw : WrittenMembers members)
    (h : ∀ m ∈ members, ReadsBack m.2) : ReadsBack (.obj members) := by
  refine readsBack_of_succ hw fun depth rest _ hdepth => ?_
  rw [toList_write_obj] at hdepth ⊢
  simp only [List.length_append, List.length_cons] at hdepth
  rw [List.cons_append, List.append_assoc]
  cases members with
  | nil => exact value_empty_obj depth allBlank_nil rest
  | cons m ms =>
    have hmembers := objectMembers_write (by simp) h [] rest (show _ < depth by omega)
    obtain ⟨k, v⟩ := m
    have hquote : ∃ cs, membersText ((k, v) :: ms) = '"' :: cs := by
      cases ms with
      | nil => exact ⟨_, by rw [membersText_singleton, toList_stringLiteral, List.cons_append]⟩
      | cons m ms => exact ⟨_, by rw [membersText_cons, toList_stringLiteral, List.cons_append]⟩
    obtain ⟨cs, hcs⟩ := hquote
    refine value_obj ?_ hmembers
    rw [hcs]
    exact begins_cons (by decide) (by decide) _

mutual

theorem readsBack : ∀ v : Json, Written v → ReadsBack v
  | .null, h => h.elim
  | .num _, h => h.elim
  | .bool b, h => readsBack_of_succ h fun depth _ hrest _ => value_bool depth b hrest.stops
  | .str s, h => readsBack_of_succ h fun depth rest _ _ => value_text depth s rest
  | .int _, h => readsBack_of_succ h fun depth _ hrest _ => value_int depth h hrest.stops
  | .arr items, h => readsBack_arr h (readsBack_items items h)
  | .obj members, h => readsBack_obj h (readsBack_members members h)

theorem readsBack_items : ∀ items : List Json, WrittenItems items → ∀ v ∈ items, ReadsBack v
  | [], _ => by simp
  | v :: vs, h => by
    intro u hu
    rcases List.mem_cons.1 hu with heq | hu
    · rw [heq]
      exact readsBack v h.1
    · exact readsBack_items vs h.2 u hu

theorem readsBack_members : ∀ members : List (String × Json), WrittenMembers members →
    ∀ m ∈ members, ReadsBack m.2
  | [], _ => by simp
  | (k, v) :: ms, h => by
    intro m hm
    rcases List.mem_cons.1 hm with heq | hm
    · rw [heq]
      exact readsBack v h.1
    · exact readsBack_members ms h.2 m hm

end

/-- Reading a whole written value. -/
theorem read_write {v : Json} (h : Written v) : parse v.write = .ok (rereadValue v) := by
  have hv := readsBack v h (2 * v.write.toList.length + 2) [] delimited_nil (by omega)
  rw [List.append_nil] at hv
  unfold parse read
  rw [hv]
  rfl

end TypedLiteral

end ServerDeploy
