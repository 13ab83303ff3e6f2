import ServerDeploy.Proofs.TypedLiteral.Progress

/-! How reading a literal ends. It gives a value or has a problem, which is placed in the text, unless an
integer of too many digits stands where a number is read. All that stands before such an integer has
been read by then, and what stands behind it does not matter. -/

namespace ServerDeploy

namespace TypedLiteral

/-- Neither a fraction nor an exponent follows, so the digits before it are an integer. -/
def EndsInteger (rest : List Char) : Prop :=
  (∀ c ∈ rest.head?, isDecimalDigit c = false) ∧ fraction? rest = none ∧ exponent? rest = none

/-- An integer of `n` digits comes next, which are too many. -/
inductive TooLong (n : Nat) (cs : List Char) : Prop
  | integer (negative : Bool) {digits rest : List Char}
      (hskip : skipBlanks cs = minusText negative ++ (digits ++ rest))
      (hdigits : ∀ c ∈ digits, isDecimalDigit c = true) (hlength : digits.length = n)
      (hmax : maxIntegerDigits < n) (hrest : EndsInteger rest)

/-- The same where a number is announced by its kind. -/
inductive TooLongToken (n : Nat) (cs : List Char) : Prop
  | number (h : TooLong n cs)
  | big {kind afterBig afterKind : List Char}
      (hbig : word? (skipBlanks cs) = some ("big".toList, afterBig))
      (hkind : word? (skipBlanks afterBig) = some (kind, afterKind))
      (hname : kind = "integer".toList ∨ kind = "decimal".toList) (h : TooLong n afterKind)

/-- What is read next. -/
inductive Place where
  | value
  | items
  | members
  deriving DecidableEq, Repr

/-- Reading comes to an integer of `n` digits, which are too many, before anything is amiss. -/
inductive Overlong (n : Nat) : Place → List Char → Prop
  | token {cs : List Char} (h : TooLongToken n cs) : Overlong n .value cs
  | list {cs rest : List Char} (hskip : skipBlanks cs = '[' :: rest)
      (hopen : ∀ after, skipBlanks rest ≠ ']' :: after) (h : Overlong n .items rest) :
      Overlong n .value cs
  | object {cs rest : List Char} (hskip : skipBlanks cs = '\x7b' :: rest)
      (hopen : ∀ after, skipBlanks rest ≠ '\x7d' :: after) (h : Overlong n .members rest) :
      Overlong n .value cs
  | property {cs rest afterKey body : List Char} {name : String}
      (hskip : skipBlanks cs = '(' :: rest) (hkey : key rest = .ok (name, afterKey))
      (harrow : arrow afterKey = .ok ((), body)) (h : Overlong n .value body) : Overlong n .value cs
  | item {cs : List Char} (h : Overlong n .value cs) : Overlong n .items cs
  | laterItem {cs rest after : List Char} {v : Json} (hv : value (depthFor cs) cs = .ok (v, rest))
      (hskip : skipBlanks rest = ',' :: after) (h : Overlong n .items after) : Overlong n .items cs
  | member {cs afterKey body : List Char} {name : String} (hkey : key cs = .ok (name, afterKey))
      (harrow : arrow afterKey = .ok ((), body)) (h : Overlong n .value body) :
      Overlong n .members cs
  | laterMember {cs afterKey body rest after : List Char} {name : String} {v : Json}
      (hkey : key cs = .ok (name, afterKey)) (harrow : arrow afterKey = .ok ((), body))
      (hv : value (depthFor body) body = .ok (v, rest)) (hskip : skipBlanks rest = ',' :: after)
      (h : Overlong n .members after) : Overlong n .members cs

/-- A failure that is no integer of too many digits. -/
def Failure.IsProblem : Failure → Prop
  | .malformed _ _ => True
  | .oversize _ => False

section Problems

variable (cs : List Char)

theorem fails_mark (c : Char) : Fails Failure.IsProblem (mark c cs) := by
  unfold mark
  split
  · split
    · exact fails_ok _
    · exact fails_error trivial
  · exact fails_error trivial

theorem fails_stringBody : Fails Failure.IsProblem (stringBody cs) := by
  fun_induction stringBody cs with
  | case1 => exact fails_error trivial
  | case2 => exact fails_ok _
  | case3 => exact fails_error trivial
  | case4 _ _ _ ih => exact ih.bind fun _ => fails_ok _
  | case5 _ _ _ _ ih => exact ih.bind fun _ => fails_ok _

theorem fails_string : Fails Failure.IsProblem (string cs) :=
  (fails_mark cs '"').bind fun _ => (fails_stringBody _).bind fun _ => fails_ok _

theorem fails_key : Fails Failure.IsProblem (key cs) := by
  unfold key
  split
  · exact fails_string _
  split
  · exact fails_ok _
  · exact fails_error trivial

theorem fails_arrow : Fails Failure.IsProblem (arrow cs) := by
  unfold arrow
  split
  · exact fails_ok _
  · exact fails_ok _
  · exact fails_error trivial

theorem fails_byteItems (bound : Nat) : Fails Failure.IsProblem (byteItems bound cs) := by
  induction bound generalizing cs with
  | zero => exact fails_error trivial
  | succ bound ih =>
    unfold byteItems
    split
    · exact fails_ok _
    split
    · exact fails_error trivial
    · exact (ih _).bind fun _ => fails_ok _

theorem fails_bytes : Fails Failure.IsProblem (bytes cs) :=
  (fails_mark cs '\x7b').bind fun _ => (fails_byteItems _ _).bind fun _ => fails_ok _

end Problems

theorem ne_oversize {α : Type} {n : Nat} {r : Except Failure α} (h : Fails Failure.IsProblem r) :
    r ≠ .error (.oversize n) := fun heq => h _ heq

theorem fraction?_ne_nil {cs digits rest : List Char} (h : fraction? cs = some (digits, rest)) :
    digits ≠ [] := by
  unfold fraction? at h
  split at h
  · split at h
    · cases h
    · next hdigits =>
      cases h
      exact hdigits
  · cases h

theorem no_fraction {cs digits rest : List Char}
    (h : (fraction? cs).getD ([], cs) = (digits, rest)) (hdigits : digits.isEmpty = true) :
    fraction? cs = none ∧ rest = cs := by
  cases hfraction : fraction? cs with
  | none =>
    rw [hfraction] at h
    cases h
    exact ⟨rfl, rfl⟩
  | some p =>
    rw [hfraction] at h
    obtain rfl : p = (digits, rest) := h
    exact absurd (List.isEmpty_iff.1 hdigits) (fraction?_ne_nil hfraction)

theorem no_exponent {cs rest : List Char} {e : Option Int}
    (h : (match exponent? cs with
      | some (e, rest) => (some e, rest)
      | none => (none, cs)) = (e, rest)) (he : e.isNone = true) : exponent? cs = none := by
  split at h
  · cases h
    cases he
  · assumption

theorem head_dropWhile_digits (cs : List Char) :
    ∀ c ∈ (cs.dropWhile isDecimalDigit).head?, isDecimalDigit c = false := by
  intro c hc
  have hnot := List.head?_dropWhile_not isDecimalDigit cs
  rw [Option.mem_def.1 hc] at hnot
  simpa using hnot

theorem TooLong.of_number {n : Nat} {cs : List Char} (h : number cs = .error (.oversize n)) :
    TooLong n cs := by
  revert h
  fun_cases number cs with
  | case1 =>
    intro h
    cases h
  | case3 =>
    intro h
    cases h
  | case4 =>
    intro h
    cases h
  | case2 start negative body hsign whole after hne digits afterFraction hfraction e rest hexponent
      hinteger hmax =>
    intro h
    cases h
    obtain ⟨hdigits, he⟩ := Bool.and_eq_true_iff.1 hinteger
    obtain ⟨hnone, rfl⟩ := no_fraction hfraction hdigits
    have hbody : body = whole ++ after := List.takeWhile_append_dropWhile.symm
    refine .integer negative ((sign_suffix hsign).trans (congrArg _ hbody))
      (List.all_eq_true.1 (List.all_takeWhile (p := isDecimalDigit))) rfl hmax ?_
    exact ⟨head_dropWhile_digits body, hnone, no_exponent hexponent he⟩

theorem TooLong.starts {n : Nat} {cs : List Char} (h : TooLong n cs) :
    ∃ c rest, skipBlanks cs = c :: rest ∧ (c = '-' ∨ isDecimalDigit c = true) := by
  cases h with
  | @integer negative digits rest hskip hdigits hlength hmax hrest =>
    obtain ⟨c, cs', rfl⟩ := List.exists_cons_of_length_pos (l := digits) (by omega)
    cases negative with
    | true => exact ⟨_, _, hskip, .inl rfl⟩
    | false => exact ⟨c, cs' ++ rest, hskip, .inr (hdigits c (by simp))⟩

theorem TooLong.number_eq {n : Nat} {cs : List Char} (h : TooLong n cs) :
    number cs = .error (.oversize n) := by
  cases h with
  | @integer negative digits rest hskip hdigits hlength hmax hrest =>
    obtain ⟨htake, hdrop⟩ := span_of_head hdigits hrest.1
    obtain ⟨c, cs', hcons⟩ := List.exists_cons_of_length_pos (l := digits) (by omega)
    have hempty : digits.isEmpty = false := by simp [hcons]
    subst hlength
    unfold number
    cases negative with
    | true =>
      have hminus : skipBlanks cs = '-' :: (digits ++ rest) := hskip
      rw [hminus]
      simp only [htake, hdrop, hempty, hrest.2, hmax, Option.getD_none]
      rfl
    | false =>
      have hnone : skipBlanks cs = digits ++ rest := hskip
      rw [hnone]
      dsimp only
      split
      · next heq =>
        -- the first digit is no minus
        have hc := hdigits c (by simp [hcons])
        rw [hcons] at heq
        rw [(List.cons.inj heq).1] at hc
        exact absurd hc (by decide)
      · simp only [htake, hdrop, hempty, hrest.2, hmax, Option.getD_none]
        rfl

theorem TooLongToken.of_bigNumber {n : Nat} {cs afterBig : List Char}
    (hbig : word? (skipBlanks cs) = some ("big".toList, afterBig))
    (h : bigNumber afterBig = .error (.oversize n)) : TooLongToken n cs := by
  unfold bigNumber at h
  split at h
  · cases h
  · next kind afterKind hkind =>
    dsimp only at h
    split at h
    · next hname =>
      refine .big hbig hkind ?_ (TooLong.of_number h)
      rcases hname with hname | hname
      · exact .inl (by rw [← hname, String.toList_ofList])
      · exact .inr (by rw [← hname, String.toList_ofList])
    · cases h

theorem TooLongToken.of_keyword {n : Nat} {cs : List Char}
    (h : keyword cs = .error (.oversize n)) : TooLongToken n cs := by
  unfold keyword at h
  split at h
  · cases h
  · next word rest hword =>
    dsimp only at h
    split at h
    · cases h
    split at h
    · cases h
    split at h
    · cases h
    split at h
    · exact absurd h (ne_oversize ((fails_string rest).bind fun _ => fails_ok _))
    split at h
    · exact absurd h (ne_oversize (fails_bytes rest))
    split at h
    · next hbig =>
      have hname : word = "big".toList := by rw [← hbig, String.toList_ofList]
      exact .of_bigNumber (hname ▸ hword) h
    · cases h

theorem first_of_word {cs word rest : List Char} {c : Char}
    (h : word? cs = some (c :: word, rest)) : ∃ more, cs = c :: more := by
  cases cs with
  | nil => cases h
  | cons d cs =>
    simp only [word?] at h
    split at h
    · cases h
      exact ⟨cs, rfl⟩
    · cases h

theorem TooLongToken.starts {n : Nat} {cs : List Char} (h : TooLongToken n cs) :
    ∃ c rest, skipBlanks cs = c :: rest ∧ (c = '-' ∨ isDecimalDigit c = true ∨ c = 'b') := by
  cases h with
  | number h =>
    obtain ⟨c, rest, hskip, hc⟩ := h.starts
    exact ⟨c, rest, hskip, hc.imp_right .inl⟩
  | big hbig =>
    obtain ⟨more, hskip⟩ := first_of_word hbig
    exact ⟨'b', more, hskip, .inr (.inr rfl)⟩

/-- Tokens that are too long open nothing. -/
theorem TooLongToken.not_opening {n : Nat} {cs : List Char} (h : TooLongToken n cs) :
    ∀ c rest, skipBlanks cs = c :: rest → c ∉ ['[', '\x7b', '(', '"'] := by
  intro c rest hskip hc
  obtain ⟨d, rest', hskip', hd⟩ := h.starts
  obtain rfl : c = d := (List.cons.inj (hskip.symm.trans hskip')).1
  simp only [List.mem_cons, List.not_mem_nil, or_false] at hc
  rcases hc with rfl | rfl | rfl | rfl <;> revert hd <;> decide

theorem number_skipBlanks (cs : List Char) : number (skipBlanks cs) = number cs := by
  simp only [number, skipBlanks_skipBlanks]

theorem keyword_skipBlanks (cs : List Char) : keyword (skipBlanks cs) = keyword cs := by
  simp only [keyword, skipBlanks_skipBlanks]

theorem TooLongToken.keyword_of_big {n : Nat} {cs kind afterBig afterKind : List Char}
    (hbig : word? (skipBlanks cs) = some ("big".toList, afterBig))
    (hkind : word? (skipBlanks afterBig) = some (kind, afterKind))
    (hname : kind = "integer".toList ∨ kind = "decimal".toList) (h : TooLong n afterKind) :
    keyword cs = .error (.oversize n) := by
  have hnumber : bigNumber afterBig = .error (.oversize n) := by
    unfold bigNumber
    rw [hkind]
    rcases hname with rfl | rfl
    · exact h.number_eq
    · exact h.number_eq
  unfold keyword
  rw [hbig]
  exact hnumber

theorem TooLongToken.value_eq {n : Nat} {cs : List Char} (h : TooLongToken n cs) :
    value 1 cs = .error (.oversize n) := by
  obtain ⟨c, rest, hskip, hc⟩ := h.starts
  have hnot := h.not_opening c rest hskip
  simp only [List.mem_cons, List.not_mem_nil, or_false, not_or] at hnot
  rw [value_succ, hskip]
  simp only [hnot, if_false]
  cases h with
  | number h =>
    obtain ⟨d, rest', hskip', hd⟩ := h.starts
    obtain rfl : c = d := (List.cons.inj (hskip.symm.trans hskip')).1
    have hsign : c = '-' ∨ isDigitSign c = true := hd.imp_right fun hd => by simp [isDigitSign, hd]
    rw [if_pos hsign, ← hskip, number_skipBlanks]
    exact h.number_eq
  | big hbig hkind hname h =>
    obtain ⟨more, hskip'⟩ := first_of_word hbig
    obtain rfl : c = 'b' := (List.cons.inj (hskip.symm.trans hskip')).1
    rw [if_neg (by decide), ← hskip, keyword_skipBlanks]
    exact TooLongToken.keyword_of_big hbig hkind hname h

theorem TooLongToken.of_value {n : Nat} {cs : List Char}
    (hnothing : ∀ c rest, skipBlanks cs = c :: rest → c ∉ ['[', '\x7b', '('])
    (h : value 1 cs = .error (.oversize n)) : TooLongToken n cs := by
  rw [value_succ] at h
  split at h
  · cases h
  · next c rest hskip =>
    have hnot := hnothing c rest hskip
    simp only [List.mem_cons, List.not_mem_nil, or_false, not_or] at hnot
    simp only [hnot, if_false] at h
    split at h
    · exact absurd h (ne_oversize ((fails_string _).bind fun _ => fails_ok _))
    split at h
    · rw [← hskip, number_skipBlanks] at h
      exact .number (TooLong.of_number h)
    · rw [← hskip, keyword_skipBlanks] at h
      exact .of_keyword h

section Nested

variable {n depth : Nat} {cs rest : List Char}

theorem overlong_list_iff (hskip : skipBlanks cs = '[' :: rest) : Overlong n .value cs ↔
    (∀ after, skipBlanks rest ≠ ']' :: after) ∧ Overlong n .items rest := by
  constructor
  · intro h
    cases h with
    | token h => exact absurd (by simp) (h.not_opening _ _ hskip)
    | list hskip' hopen h =>
      obtain rfl := (List.cons.inj (hskip.symm.trans hskip')).2
      exact ⟨hopen, h⟩
    | object hskip' => cases hskip.symm.trans hskip'
    | property hskip' => cases hskip.symm.trans hskip'
  · rintro ⟨hopen, h⟩
    exact .list hskip hopen h

theorem overlong_object_iff (hskip : skipBlanks cs = '\x7b' :: rest) : Overlong n .value cs ↔
    (∀ after, skipBlanks rest ≠ '\x7d' :: after) ∧ Overlong n .members rest := by
  constructor
  · intro h
    cases h with
    | token h => exact absurd (by simp) (h.not_opening _ _ hskip)
    | list hskip' => cases hskip.symm.trans hskip'
    | object hskip' hopen h =>
      obtain rfl := (List.cons.inj (hskip.symm.trans hskip')).2
      exact ⟨hopen, h⟩
    | property hskip' => cases hskip.symm.trans hskip'
  · rintro ⟨hopen, h⟩
    exact .object hskip hopen h

theorem overlong_property_iff (hskip : skipBlanks cs = '(' :: rest) : Overlong n .value cs ↔
    ∃ name afterKey body, key rest = .ok (name, afterKey) ∧ arrow afterKey = .ok ((), body) ∧
      Overlong n .value body := by
  constructor
  · intro h
    cases h with
    | token h => exact absurd (by simp) (h.not_opening _ _ hskip)
    | list hskip' => cases hskip.symm.trans hskip'
    | object hskip' => cases hskip.symm.trans hskip'
    | property hskip' hkey harrow h =>
      obtain rfl := (List.cons.inj (hskip.symm.trans hskip')).2
      exact ⟨_, _, _, hkey, harrow, h⟩
  · rintro ⟨name, afterKey, body, hkey, harrow, h⟩
    exact .property hskip hkey harrow h

theorem overlong_items_iff : Overlong n .items cs ↔ Overlong n .value cs ∨
    ∃ v rest after, value (depthFor cs) cs = .ok (v, rest) ∧ skipBlanks rest = ',' :: after ∧
      Overlong n .items after := by
  constructor
  · intro h
    cases h with
    | item h => exact .inl h
    | laterItem hv hskip h => exact .inr ⟨_, _, _, hv, hskip, h⟩
  · rintro (h | ⟨v, rest, after, hv, hskip, h⟩)
    · exact .item h
    · exact .laterItem hv hskip h

theorem overlong_members_iff : Overlong n .members cs ↔ ∃ name afterKey body,
    key cs = .ok (name, afterKey) ∧ arrow afterKey = .ok ((), body) ∧ (Overlong n .value body ∨
      ∃ v rest after, value (depthFor body) body = .ok (v, rest) ∧ skipBlanks rest = ',' :: after ∧
        Overlong n .members after) := by
  constructor
  · intro h
    cases h with
    | member hkey harrow h => exact ⟨_, _, _, hkey, harrow, .inl h⟩
    | laterMember hkey harrow hv hskip h => exact ⟨_, _, _, hkey, harrow, .inr ⟨_, _, _, hv, hskip, h⟩⟩
  · rintro ⟨name, afterKey, body, hkey, harrow, h | ⟨v, rest, after, hv, hskip, h⟩⟩
    · exact .member hkey harrow h
    · exact .laterMember hkey harrow hv hskip h

theorem map_eq_oversize_iff {α β : Type} {r : Except Failure α} {f : α → β} :
    r.map f = .error (.oversize n) ↔ r = .error (.oversize n) := by
  cases r with
  | error e => simp [Except.map]
  | ok v => simp [Except.map]

theorem bind_eq_oversize_iff {α β : Type} {r : Except Failure α} {f : α → Except Failure β} :
    r >>= f = .error (.oversize n) ↔
      r = .error (.oversize n) ∨ ∃ v, r = .ok v ∧ f v = .error (.oversize n) := by
  cases r with
  | error e => simp [bind, Except.bind]
  | ok v => simp [bind, Except.bind]

theorem bind_problem_eq_oversize_iff {α β : Type} {r : Except Failure α} {f : α → Except Failure β}
    (hr : Fails Failure.IsProblem r) :
    r >>= f = .error (.oversize n) ↔ ∃ v, r = .ok v ∧ f v = .error (.oversize n) := by
  rw [bind_eq_oversize_iff, or_iff_right (ne_oversize hr)]

theorem length_of_keyed {afterKey body : List Char} {name : String}
    (hkey : key cs = .ok (name, afterKey)) (harrow : arrow afterKey = .ok ((), body)) :
    body.length + 2 ≤ cs.length := by
  have hkeyed := (hkey ▸ proceeds_key cs).of_ok.2
  have harrowed := (harrow ▸ proceeds_arrow afterKey).of_ok.2
  omega

theorem value_oversize_succ (hdepth : 2 * cs.length ≤ depth)
    (hvalue : ∀ cs, 2 * cs.length + 1 ≤ depth →
      (value depth cs = .error (.oversize n) ↔ Overlong n .value cs))
    (hitems : ∀ cs, 2 * cs.length + 2 ≤ depth →
      (listItems depth cs = .error (.oversize n) ↔ Overlong n .items cs))
    (hmembers : ∀ before cs, 2 * cs.length + 2 ≤ depth →
      (objectMembers depth before cs = .error (.oversize n) ↔ Overlong n .members cs)) :
    value (depth + 1) cs = .error (.oversize n) ↔ Overlong n .value cs := by
  by_cases hlist : ∃ rest, skipBlanks cs = '[' :: rest
  · obtain ⟨rest, h⟩ := hlist
    have hshort := length_of_next h
    rw [overlong_list_iff h, ← hitems rest (by omega)]
    by_cases hclose : ∃ after, skipBlanks rest = ']' :: after
    · obtain ⟨after, hclose⟩ := hclose
      simp [value_emptyList _ h hclose, hclose]
    · have hopen := not_exists.1 hclose
      rw [value_opensList _ h hopen, map_eq_oversize_iff]
      exact (and_iff_right hopen).symm
  by_cases hobject : ∃ rest, skipBlanks cs = '\x7b' :: rest
  · obtain ⟨rest, h⟩ := hobject
    have hshort := length_of_next h
    rw [overlong_object_iff h, ← hmembers [] rest (by omega)]
    by_cases hclose : ∃ after, skipBlanks rest = '\x7d' :: after
    · obtain ⟨after, hclose⟩ := hclose
      simp [value_emptyObject _ h hclose, hclose]
    · have hopen := not_exists.1 hclose
      rw [value_opensObject _ h hopen, map_eq_oversize_iff]
      exact (and_iff_right hopen).symm
  by_cases hproperty : ∃ rest, skipBlanks cs = '(' :: rest
  · obtain ⟨rest, h⟩ := hproperty
    have hshort := length_of_next h
    rw [value_opensProperty _ h, overlong_property_iff h]
    constructor
    · intro h
      obtain ⟨⟨name, afterKey⟩, hkey, h⟩ := (bind_problem_eq_oversize_iff (fails_key rest)).1 h
      obtain ⟨⟨u, body⟩, harrow, h⟩ := (bind_problem_eq_oversize_iff (fails_arrow afterKey)).1 h
      have hbody := length_of_keyed hkey harrow
      rcases bind_eq_oversize_iff.1 h with h | ⟨⟨v, after⟩, -, h⟩
      · exact ⟨name, afterKey, body, hkey, harrow, (hvalue body (by omega)).1 h⟩
      · exact absurd h (ne_oversize ((fails_mark after ')').bind fun _ => fails_ok _))
    · rintro ⟨name, afterKey, body, hkey, harrow, h⟩
      have hbody := length_of_keyed hkey harrow
      refine (bind_problem_eq_oversize_iff (fails_key rest)).2 ⟨(name, afterKey), hkey, ?_⟩
      refine (bind_problem_eq_oversize_iff (fails_arrow afterKey)).2 ⟨((), body), harrow, ?_⟩
      exact bind_eq_oversize_iff.2 (.inl ((hvalue body (by omega)).2 h))
  have hnothing := opensNothing_of_not hlist hobject hproperty
  rw [value_opensNothing depth hnothing]
  constructor
  · intro h
    exact .token (.of_value hnothing h)
  · intro h
    cases h with
    | token h => exact h.value_eq
    | list hskip => exact absurd ⟨_, hskip⟩ hlist
    | object hskip => exact absurd ⟨_, hskip⟩ hobject
    | property hskip => exact absurd ⟨_, hskip⟩ hproperty

theorem listItems_oversize_succ (hdepth : 2 * cs.length + 1 ≤ depth)
    (hvalue : ∀ cs, 2 * cs.length + 1 ≤ depth →
      (value depth cs = .error (.oversize n) ↔ Overlong n .value cs))
    (hitems : ∀ cs, 2 * cs.length + 2 ≤ depth →
      (listItems depth cs = .error (.oversize n) ↔ Overlong n .items cs)) :
    listItems (depth + 1) cs = .error (.oversize n) ↔ Overlong n .items cs := by
  rw [listItems_succ, bind_eq_oversize_iff, hvalue cs hdepth, overlong_items_iff, value_of_depth hdepth]
  refine or_congr_right ?_
  have hshort {v : Json} {rest : List Char} (hv : value (depthFor cs) cs = .ok (v, rest)) :
      rest.length + 1 ≤ cs.length := (hv ▸ proceeds_value _ cs).of_ok.2
  constructor
  · rintro ⟨⟨v, rest⟩, hv, h⟩
    have hrest := hshort hv
    dsimp only at h
    split at h
    · next after hskip =>
      have hafter := length_of_next hskip
      have hmore : listItems depth after = .error (.oversize n) := by
        refine (bind_eq_oversize_iff.1 h).resolve_right ?_
        rintro ⟨p, -, h⟩
        cases h
      exact ⟨v, rest, after, hv, hskip, (hitems after (by omega)).1 hmore⟩
    · cases h
    · cases h
  · rintro ⟨v, rest, after, hv, hskip, h⟩
    have hrest := hshort hv
    have hafter := length_of_next hskip
    refine ⟨(v, rest), hv, ?_⟩
    simp only [hskip, (hitems after (by omega)).2 h]
    rfl

theorem objectMembers_oversize_succ (hdepth : 2 * cs.length + 1 ≤ depth)
    (hvalue : ∀ cs, 2 * cs.length + 1 ≤ depth →
      (value depth cs = .error (.oversize n) ↔ Overlong n .value cs))
    (hmembers : ∀ before cs, 2 * cs.length + 2 ≤ depth →
      (objectMembers depth before cs = .error (.oversize n) ↔ Overlong n .members cs))
    (before : Members) :
    objectMembers (depth + 1) before cs = .error (.oversize n) ↔ Overlong n .members cs := by
  rw [objectMembers_succ, overlong_members_iff]
  have hshort {v : Json} {body rest : List Char} (hv : value (depthFor body) body = .ok (v, rest)) :
      rest.length + 1 ≤ body.length := (hv ▸ proceeds_value _ body).of_ok.2
  constructor
  · intro h
    obtain ⟨⟨name, afterKey⟩, hkey, h⟩ := (bind_problem_eq_oversize_iff (fails_key cs)).1 h
    obtain ⟨⟨u, body⟩, harrow, h⟩ := (bind_problem_eq_oversize_iff (fails_arrow afterKey)).1 h
    have hbody := length_of_keyed hkey harrow
    refine ⟨name, afterKey, body, hkey, harrow, ?_⟩
    rcases bind_eq_oversize_iff.1 h with h | ⟨⟨v, rest⟩, hv, h⟩
    · exact .inl ((hvalue body (by omega)).1 h)
    · rw [value_of_depth (by omega)] at hv
      have hrest := hshort hv
      dsimp only at h
      split at h
      · next after hskip =>
        have hafter := length_of_next hskip
        exact .inr ⟨v, rest, after, hv, hskip, (hmembers _ after (by omega)).1 h⟩
      · cases h
      · cases h
  · rintro ⟨name, afterKey, body, hkey, harrow, h⟩
    have hbody := length_of_keyed hkey harrow
    refine (bind_problem_eq_oversize_iff (fails_key cs)).2 ⟨(name, afterKey), hkey, ?_⟩
    refine (bind_problem_eq_oversize_iff (fails_arrow afterKey)).2 ⟨((), body), harrow, ?_⟩
    refine bind_eq_oversize_iff.2 (h.imp (hvalue body (by omega)).2 ?_)
    rintro ⟨v, rest, after, hv, hskip, h⟩
    have hrest := hshort hv
    have hafter := length_of_next hskip
    refine ⟨(v, rest), (value_of_depth (by omega)).trans hv, ?_⟩
    simp only [hskip, (hmembers _ after (by omega)).2 h]

theorem nested_oversize (n depth : Nat) :
    (∀ cs, 2 * cs.length + 1 ≤ depth →
      (value depth cs = .error (.oversize n) ↔ Overlong n .value cs)) ∧
    (∀ cs, 2 * cs.length + 2 ≤ depth →
      (listItems depth cs = .error (.oversize n) ↔ Overlong n .items cs)) ∧
      ∀ before cs, 2 * cs.length + 2 ≤ depth →
        (objectMembers depth before cs = .error (.oversize n) ↔ Overlong n .members cs) := by
  induction depth with
  | zero => exact ⟨fun cs h => by omega, fun cs h => by omega, fun before cs h => by omega⟩
  | succ depth ih =>
    obtain ⟨hvalue, hitems, hmembers⟩ := ih
    exact ⟨fun cs h => value_oversize_succ (by omega) hvalue hitems hmembers,
      fun cs h => listItems_oversize_succ (by omega) hvalue hitems,
      fun before cs h => objectMembers_oversize_succ (by omega) hvalue hmembers before⟩

end Nested

theorem read_eq_oversize_iff {n : Nat} {cs : List Char} :
    read cs = .error (.oversize n) ↔ Overlong n .value cs := by
  rw [← (nested_oversize n (depthFor cs)).1 cs (by unfold depthFor; omega)]
  unfold read depthFor
  split
  · next failure h => rw [h, Except.error.injEq, Except.error.injEq]
  · next v rest h =>
    rw [h]
    split <;> simp

/-- Somewhere in the text `n` digits stand together, which are too many for an integer. -/
def DigitRun (n : Nat) (cs : List Char) : Prop :=
  ∃ digits, digits <:+: cs ∧ (∀ c ∈ digits, isDecimalDigit c = true) ∧ digits.length = n ∧
    maxIntegerDigits < n

section DigitRun

variable {n : Nat} {cs rest : List Char}

theorem DigitRun.of_suffix (h : DigitRun n rest) (hrest : rest <:+ cs) : DigitRun n cs := by
  obtain ⟨digits, hinfix, hdigits⟩ := h
  exact ⟨digits, hinfix.trans hrest.isInfix, hdigits⟩

theorem DigitRun.of_next {c : Char} (h : DigitRun n rest) (hskip : skipBlanks cs = c :: rest) :
    DigitRun n cs :=
  (h.of_suffix (List.suffix_cons c rest)).of_suffix (hskip ▸ skipBlanks_suffix cs)

theorem TooLong.digitRun (h : TooLong n cs) : DigitRun n cs := by
  cases h with
  | @integer negative digits rest hskip hdigits hlength hmax hrest =>
    have hrun : DigitRun n (skipBlanks cs) :=
      ⟨digits, ⟨minusText negative, rest, by rw [hskip, List.append_assoc]⟩, hdigits, hlength, hmax⟩
    exact hrun.of_suffix (skipBlanks_suffix cs)

theorem TooLongToken.digitRun (h : TooLongToken n cs) : DigitRun n cs := by
  cases h with
  | number h => exact h.digitRun
  | big hbig hkind hname h =>
    have hafterBig := (word?_proceeds hbig).1.trans (skipBlanks_suffix _)
    have hafterKind := (word?_proceeds hkind).1.trans (skipBlanks_suffix _)
    exact h.digitRun.of_suffix (hafterKind.trans hafterBig)

theorem Overlong.digitRun {p : Place} (h : Overlong n p cs) : DigitRun n cs := by
  -- each part that is read leaves an end of the text, and the digits are found in the last one
  have hbehind {name : String} {cs afterKey body : List Char} (hkey : key cs = .ok (name, afterKey))
      (harrow : arrow afterKey = .ok ((), body)) : body <:+ cs :=
    (harrow ▸ proceeds_arrow afterKey).of_ok.1.trans (hkey ▸ proceeds_key cs).of_ok.1
  have hvalue {v : Json} {cs rest : List Char} (hv : value (depthFor cs) cs = .ok (v, rest)) :
      rest <:+ cs := (hv ▸ proceeds_value _ cs).of_ok.1
  induction h with
  | token h => exact h.digitRun
  | list hskip hopen h ih => exact ih.of_next hskip
  | object hskip hopen h ih => exact ih.of_next hskip
  | property hskip hkey harrow h ih => exact (ih.of_suffix (hbehind hkey harrow)).of_next hskip
  | item h ih => exact ih
  | laterItem hv hskip h ih => exact (ih.of_next hskip).of_suffix (hvalue hv)
  | member hkey harrow h ih => exact ih.of_suffix (hbehind hkey harrow)
  | laterMember hkey harrow hv hskip h ih =>
    exact ((ih.of_next hskip).of_suffix (hvalue hv)).of_suffix (hbehind hkey harrow)

end DigitRun

theorem suffix_of_read {cs rest : List Char} {problem : Problem}
    (h : read cs = .error (.malformed problem rest)) : rest <:+ cs := by
  have hvalue := proceeds_value (2 * cs.length + 2) cs
  unfold read at h
  split at h
  · next failure heq =>
    cases h
    rw [heq] at hvalue
    cases hvalue with
    | malformed _ hrest => exact hrest
  · next v after heq =>
    rw [heq] at hvalue
    split at h
    · cases h
    · cases h
      exact (skipBlanks_suffix after).trans hvalue.of_ok.1

theorem message_names (s : String) (problem : Problem) (position : Nat) :
    s.toList <:+: (DeployError.literal s problem position).message.toList := by
  have hmessage : (DeployError.literal s problem position).message =
      "Invalid typed value '" ++ s ++ "': " ++ problem.message ++ " at position " ++
        toString position := rfl
  rw [hmessage]
  simp only [String.toList_append, List.append_assoc]
  exact ⟨_, _, List.append_assoc _ _ _⟩

/-- A text is a literal, or it has a problem at a place that the error names with the text, or reading
comes to an integer of too many digits first. The last is no error for the operator. -/
theorem parse_ends (s : String) :
    ((∃ v, parse s = .ok v) ∨
      (∃ problem before rest, s.toList = before ++ rest ∧
        (parse s).mapError (Fault.literal s) = .error (.deploy (.literal s problem before.length)) ∧
        s.toList <:+: (DeployError.literal s problem before.length).message.toList) ∨
      ∃ n, Overlong n .value s.toList) ∧
    ∀ n, Overlong n .value s.toList →
      (parse s).mapError (Fault.literal s) = .error (.oversizeReading n) ∧ DigitRun n s.toList := by
  refine ⟨?_, fun n h => ⟨?_, h.digitRun⟩⟩
  · cases hread : read s.toList with
    | ok v => exact .inl ⟨v, hread⟩
    | error failure =>
      cases failure with
      | malformed problem rest =>
        obtain ⟨before, hbefore⟩ := suffix_of_read hread
        refine .inr (.inl ⟨problem, before, rest, hbefore.symm, ?_, message_names s problem _⟩)
        have hlength : s.length - rest.length = before.length := by
          rw [← String.length_toList, ← hbefore, List.length_append, Nat.add_sub_cancel]
        rw [parse, hread, ← hlength]
        rfl
      | oversize n => exact .inr (.inr ⟨n, read_eq_oversize_iff.1 hread⟩)
  · rw [parse, read_eq_oversize_iff.2 h]
    rfl

def nines (n : Nat) : String := String.ofList (List.replicate n '9')

theorem toList_nines (n : Nat) : (nines n).toList = List.replicate n '9' := String.toList_ofList

theorem overlong_nines {n : Nat} (h : maxIntegerDigits < n) : Overlong n .value (nines n).toList := by
  rw [toList_nines]
  have hskip : skipBlanks (List.replicate n '9') = List.replicate n '9' := by
    obtain ⟨m, rfl⟩ : ∃ m, n = m + 1 := ⟨n - 1, by omega⟩
    exact skipBlanks_cons_of_not_blank (by decide)
  refine .token (.number (@TooLong.integer n _ false (List.replicate n '9') [] ?_ ?_ ?_ h ?_))
  · rw [hskip, List.append_nil]
    rfl
  · intro c hc
    rw [List.eq_of_mem_replicate hc]
    decide
  · exact List.length_replicate
  · exact ⟨nofun, rfl, rfl⟩

theorem parse_ends_nines :
    Overlong 4301 .value (nines 4301).toList ∧
      (parse (nines 4301)).mapError (Fault.literal (nines 4301)) =
        .error (.oversizeReading 4301) := by
  have h : Overlong 4301 .value (nines 4301).toList :=
    overlong_nines (Nat.lt_succ_self maxIntegerDigits)
  exact ⟨h, ((parse_ends (nines 4301)).2 4301 h).1⟩

end TypedLiteral

end ServerDeploy
