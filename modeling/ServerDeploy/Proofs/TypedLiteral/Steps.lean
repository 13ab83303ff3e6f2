import ServerDeploy.Proofs.Text.Blanks
import ServerDeploy.Proofs.TypedLiteral.Tokens

/-! Single steps of the literal reader. Each takes the readings of the parts of a value to a reading
of the value, whatever white space stands between the parts. -/

namespace ServerDeploy

namespace TypedLiteral

/-- One level of a value. The readers call each other; what is said of them starts from this equation and
the next two. -/
theorem value_succ (depth : Nat) (cs : List Char) :
    value (depth + 1) cs =
      (match skipBlanks cs with
      | [] => .error (.malformed .endOfInput [])
      | c :: rest =>
        if c = '"' then do
          let (s, rest) ← string (c :: rest)
          pure (.str s, rest)
        else if c = '[' then
          match skipBlanks rest with
          | ']' :: after => .ok (.arr [], after)
          | items => do
            let (values, rest) ← listItems depth items
            pure (.arr values, rest)
        else if c = '\x7b' then
          match skipBlanks rest with
          | '\x7d' :: after => .ok (.obj [], after)
          | members => do
            let (members, rest) ← objectMembers depth [] members
            pure (.obj members, rest)
        else if c = '(' then do
          let (name, rest) ← key rest
          let (_, rest) ← arrow rest
          let (v, rest) ← value depth rest
          let (_, rest) ← mark ')' rest
          pure (.obj [(name, v)], rest)
        else if c = '-' ∨ isDigitSign c then number (c :: rest)
        else keyword (c :: rest)) := rfl

theorem listItems_succ (depth : Nat) (cs : List Char) :
    listItems (depth + 1) cs = (do
      let (v, rest) ← value depth cs
      match skipBlanks rest with
      | ',' :: after => do
        let (vs, rest) ← listItems depth after
        pure (v :: vs, rest)
      | ']' :: after => pure ([v], after)
      | rest => .error (.malformed .listMark rest)) := rfl

theorem objectMembers_succ (depth : Nat) (before : Members) (cs : List Char) :
    objectMembers (depth + 1) before cs = (do
      let (name, rest) ← key cs
      let (_, rest) ← arrow rest
      let (v, rest) ← value depth rest
      match skipBlanks rest with
      | ',' :: after => objectMembers depth (before.set name v) after
      | '\x7d' :: after => pure (before.set name v, after)
      | rest => .error (.malformed .objectMark rest)) := rfl

theorem value_skipBlanks (depth : Nat) (cs : List Char) :
    value depth (skipBlanks cs) = value depth cs := by
  cases depth with
  | zero =>
    have hzero (cs : List Char) : value 0 cs = .error (.malformed .endOfInput (skipBlanks cs)) := rfl
    rw [hzero, hzero, skipBlanks_skipBlanks]
  | succ depth => rw [value_succ, value_succ, skipBlanks_skipBlanks]

theorem value_blanks {ws : List Char} (h : AllBlank ws) (depth : Nat) (cs : List Char) :
    value depth (ws ++ cs) = value depth cs := by
  rw [← value_skipBlanks, skipBlanks_append h, value_skipBlanks]

theorem listItems_skipBlanks (depth : Nat) (cs : List Char) :
    listItems depth (skipBlanks cs) = listItems depth cs := by
  cases depth with
  | zero =>
    have hzero (cs : List Char) : listItems 0 cs = .error (.malformed .endOfInput (skipBlanks cs)) := rfl
    rw [hzero, hzero, skipBlanks_skipBlanks]
  | succ depth => rw [listItems_succ, listItems_succ, value_skipBlanks]

theorem listItems_blanks {ws : List Char} (h : AllBlank ws) (depth : Nat) (cs : List Char) :
    listItems depth (ws ++ cs) = listItems depth cs := by
  rw [← listItems_skipBlanks, skipBlanks_append h, listItems_skipBlanks]

theorem key_skipBlanks (cs : List Char) : key (skipBlanks cs) = key cs := by
  simp only [key, skipBlanks_skipBlanks]

theorem key_blanks {ws : List Char} (h : AllBlank ws) (cs : List Char) :
    key (ws ++ cs) = key cs := by
  rw [← key_skipBlanks, skipBlanks_append h, key_skipBlanks]

theorem arrow_blanks {ws : List Char} (h : AllBlank ws) (cs : List Char) :
    arrow (ws ++ cs) = arrow cs := by
  simp only [arrow, skipBlanks_append h]

theorem objectMembers_skipBlanks (depth : Nat) (before : Members) (cs : List Char) :
    objectMembers depth before (skipBlanks cs) = objectMembers depth before cs := by
  cases depth with
  | zero =>
    have hzero (cs : List Char) :
      objectMembers 0 before cs = .error (.malformed .endOfInput (skipBlanks cs)) := rfl
    rw [hzero, hzero, skipBlanks_skipBlanks]
  | succ depth => rw [objectMembers_succ, objectMembers_succ, key_skipBlanks]

theorem objectMembers_blanks {ws : List Char} (h : AllBlank ws) (depth : Nat) (before : Members)
    (cs : List Char) : objectMembers depth before (ws ++ cs) = objectMembers depth before cs := by
  rw [← objectMembers_skipBlanks, skipBlanks_append h, objectMembers_skipBlanks]

theorem skipBlanks_before_mark {ws : List Char} (h : AllBlank ws) {c : Char}
    (hc : isBlank c = false) (rest : List Char) : skipBlanks (ws ++ c :: rest) = c :: rest := by
  rw [skipBlanks_append h, skipBlanks_cons_of_not_blank hc]

/-- A value begins at the first character that is not white space. -/
theorem value_of_next {c : Char} {cs rest : List Char} (h : skipBlanks cs = c :: rest) (depth : Nat) :
    value depth cs = value depth (c :: rest) := by
  rw [← value_skipBlanks, h]

theorem value_bracket (depth : Nat) (cs : List Char) :
    value (depth + 1) ('[' :: cs) =
      (match skipBlanks cs with
      | ']' :: after => .ok (.arr [], after)
      | items => do
        let (values, rest) ← listItems depth items
        pure (.arr values, rest)) := rfl

theorem value_brace (depth : Nat) (cs : List Char) :
    value (depth + 1) ('\x7b' :: cs) =
      (match skipBlanks cs with
      | '\x7d' :: after => .ok (.obj [], after)
      | members => do
        let (members, rest) ← objectMembers depth [] members
        pure (.obj members, rest)) := rfl

section Opened

variable {cs rest after : List Char}

theorem value_emptyList (depth : Nat) (h : skipBlanks cs = '[' :: rest)
    (hclose : skipBlanks rest = ']' :: after) : value (depth + 1) cs = .ok (.arr [], after) := by
  rw [value_of_next h, value_bracket, hclose]
  rfl

theorem value_opensList (depth : Nat) (h : skipBlanks cs = '[' :: rest)
    (hopen : ∀ after, skipBlanks rest ≠ ']' :: after) :
    value (depth + 1) cs = (listItems depth rest).map fun p => (.arr p.1, p.2) := by
  rw [value_of_next h, value_bracket, ← listItems_skipBlanks]
  split
  · next hnext => exact absurd hnext (hopen _)
  · cases listItems depth (skipBlanks rest) <;> rfl

theorem value_emptyObject (depth : Nat) (h : skipBlanks cs = '\x7b' :: rest)
    (hclose : skipBlanks rest = '\x7d' :: after) : value (depth + 1) cs = .ok (.obj [], after) := by
  rw [value_of_next h, value_brace, hclose]
  rfl

theorem value_opensObject (depth : Nat) (h : skipBlanks cs = '\x7b' :: rest)
    (hopen : ∀ after, skipBlanks rest ≠ '\x7d' :: after) :
    value (depth + 1) cs = (objectMembers depth [] rest).map fun p => (.obj p.1, p.2) := by
  rw [value_of_next h, value_brace, ← objectMembers_skipBlanks]
  split
  · next hnext => exact absurd hnext (hopen _)
  · cases objectMembers depth [] (skipBlanks rest) <;> rfl

theorem value_opensProperty (depth : Nat) (h : skipBlanks cs = '(' :: rest) :
    value (depth + 1) cs = (do
      let (name, rest) ← key rest
      let (_, rest) ← arrow rest
      let (v, rest) ← value depth rest
      let (_, rest) ← mark ')' rest
      pure (.obj [(name, v)], rest)) := value_of_next h (depth + 1)

end Opened

theorem value_string {depth : Nat} {s : String} {cs rest : List Char}
    (h : string ('"' :: cs) = .ok (s, rest)) :
    value (depth + 1) ('"' :: cs) = .ok (.str s, rest) := by
  have hquote : value (depth + 1) ('"' :: cs) =
      string ('"' :: cs) >>= fun p => pure (.str p.1, p.2) := rfl
  rw [hquote, h]
  rfl

theorem key_string {s : String} {cs rest : List Char} (h : string ('"' :: cs) = .ok (s, rest)) :
    key ('"' :: cs) = .ok (s, rest) := by
  unfold key
  rw [skipBlanks_cons_of_not_blank (by decide)]
  exact h

theorem value_number (depth : Nat) {c : Char} (hc : c = '-' ∨ isDecimalDigit c = true)
    (cs : List Char) : value (depth + 1) (c :: cs) = number (c :: cs) := by
  have hblank : isBlank c = false := by
    rcases hc with rfl | hc
    · decide
    · exact isBlank_of_isDecimalDigit hc
  have hnot : ∀ d : Char, isDecimalDigit d = false → d ≠ '-' → c ≠ d := by
    rintro d hdigit hminus rfl
    rcases hc with rfl | hc
    · exact hminus rfl
    · rw [hdigit] at hc
      cases hc
  have hsign : c = '-' ∨ isDigitSign c = true :=
    hc.imp_right fun hc => by simp [isDigitSign, hc]
  rw [value_succ, skipBlanks_cons_of_not_blank hblank]
  simp only [hnot '"' (by decide) (by decide), hnot '[' (by decide) (by decide),
    hnot '\x7b' (by decide) (by decide), hnot '(' (by decide) (by decide), if_false, hsign, if_true]

theorem value_bool (depth : Nat) (b : Bool) {rest : List Char} (h : Stops rest) :
    value (depth + 1) ((Json.boolText b).toList ++ rest) = .ok (.bool b, rest) := by
  have hkeyword := keyword_bool b h
  cases b with
  | true =>
    rw [value_succ]
    exact hkeyword
  | false =>
    rw [value_succ]
    exact hkeyword

theorem value_undefined (depth : Nat) {rest : List Char} (h : Stops rest) :
    value (depth + 1) ("undefined".toList ++ rest) = .ok (.null, rest) := by
  have hkeyword := keyword_undefined h
  rw [value_succ]
  exact hkeyword

theorem value_empty_arr (depth : Nat) {ws : List Char} (h : AllBlank ws) (rest : List Char) :
    value (depth + 1) ('[' :: (ws ++ ']' :: rest)) = .ok (.arr [], rest) :=
  value_emptyList depth (skipBlanks_cons_of_not_blank (by decide))
    (skipBlanks_before_mark h (by decide) rest)

theorem value_empty_obj (depth : Nat) {ws : List Char} (h : AllBlank ws) (rest : List Char) :
    value (depth + 1) ('\x7b' :: (ws ++ '\x7d' :: rest)) = .ok (.obj [], rest) :=
  value_emptyObject depth (skipBlanks_cons_of_not_blank (by decide))
    (skipBlanks_before_mark h (by decide) rest)

/-- Something other than a given mark comes next, after white space. -/
def Begins (cs : List Char) (mark : Char) : Prop := ∃ c rest, skipBlanks cs = c :: rest ∧ c ≠ mark

theorem begins_cons {c mark : Char} (hblank : isBlank c = false) (hne : c ≠ mark) (rest : List Char) :
    Begins (c :: rest) mark := ⟨c, rest, skipBlanks_cons_of_not_blank hblank, hne⟩

theorem Begins.blanks {cs ws : List Char} {mark : Char} (h : Begins cs mark) (hws : AllBlank ws) :
    Begins (ws ++ cs) mark := by
  obtain ⟨c, rest, hskip, hne⟩ := h
  exact ⟨c, rest, by rw [skipBlanks_append hws, hskip], hne⟩

theorem Begins.ne {cs : List Char} {mark : Char} (h : Begins cs mark) (after : List Char) :
    skipBlanks cs ≠ mark :: after := by
  obtain ⟨c, rest, hskip, hne⟩ := h
  intro hnext
  exact hne (List.cons.inj (hskip.symm.trans hnext)).1

theorem value_arr {depth : Nat} {items : List Json} {cs rest : List Char} (hcs : Begins cs ']')
    (h : listItems depth cs = .ok (items, rest)) :
    value (depth + 1) ('[' :: cs) = .ok (.arr items, rest) := by
  rw [value_opensList depth (skipBlanks_cons_of_not_blank (by decide)) hcs.ne, h]
  rfl

theorem value_obj {depth : Nat} {members : Members} {cs rest : List Char} (hcs : Begins cs '\x7d')
    (h : objectMembers depth [] cs = .ok (members, rest)) :
    value (depth + 1) ('\x7b' :: cs) = .ok (.obj members, rest) := by
  rw [value_opensObject depth (skipBlanks_cons_of_not_blank (by decide)) hcs.ne, h]
  rfl

variable {depth : Nat} {before members : Members} {k : String} {v : Json}
  {cs middle body after more rest : List Char}

theorem value_property (hkey : key cs = .ok (k, middle)) (harrow : arrow middle = .ok ((), body))
    (hafter : AllBlank after) (h : value depth body = .ok (v, after ++ ')' :: rest)) :
    value (depth + 1) ('(' :: cs) = .ok (.obj [(k, v)], rest) := by
  have hmark : mark ')' (after ++ ')' :: rest) = .ok ((), rest) := by
    unfold mark
    rw [skipBlanks_before_mark hafter (by decide)]
    rfl
  rw [value_opensProperty depth (skipBlanks_cons_of_not_blank (by decide))]
  simp only [hkey, bind, Except.bind, harrow, h, hmark]
  rfl

theorem listItems_last (hafter : AllBlank after) (h : value depth cs = .ok (v, after ++ ']' :: rest)) :
    listItems (depth + 1) cs = .ok ([v], rest) := by
  simp only [listItems_succ, h, bind, Except.bind]
  rw [skipBlanks_before_mark hafter (by decide)]
  rfl

theorem listItems_more {vs : List Json} (hafter : AllBlank after)
    (h : value depth cs = .ok (v, after ++ ',' :: more))
    (hmore : listItems depth more = .ok (vs, rest)) :
    listItems (depth + 1) cs = .ok (v :: vs, rest) := by
  simp only [listItems_succ, h, bind, Except.bind]
  rw [skipBlanks_before_mark hafter (by decide)]
  simp only [hmore]
  rfl

theorem objectMembers_last (hkey : key cs = .ok (k, middle))
    (harrow : arrow middle = .ok ((), body)) (hafter : AllBlank after)
    (h : value depth body = .ok (v, after ++ '\x7d' :: rest)) :
    objectMembers (depth + 1) before cs = .ok (before.set k v, rest) := by
  simp only [objectMembers_succ, hkey, bind, Except.bind, harrow, h]
  rw [skipBlanks_before_mark hafter (by decide)]
  rfl

theorem objectMembers_more (hkey : key cs = .ok (k, middle))
    (harrow : arrow middle = .ok ((), body)) (hafter : AllBlank after)
    (h : value depth body = .ok (v, after ++ ',' :: more))
    (hmore : objectMembers depth (before.set k v) more = .ok (members, rest)) :
    objectMembers (depth + 1) before cs = .ok (members, rest) := by
  simp only [objectMembers_succ, hkey, bind, Except.bind, harrow, h]
  rw [skipBlanks_before_mark hafter (by decide)]
  simp only [hmore]

end TypedLiteral

end ServerDeploy
