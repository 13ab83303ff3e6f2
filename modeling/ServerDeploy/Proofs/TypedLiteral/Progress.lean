import ServerDeploy.Proofs.Fault.Kinds
import ServerDeploy.Proofs.TypedLiteral.Steps

/-! How the reader of literals gets on. Each of its parts leaves an end of the text that it is given, and
a shorter one; a problem is met at such an end too. So there is a depth that no text exceeds, and above
it the bound on the nesting does not matter. -/

namespace ServerDeploy

namespace TypedLiteral

/-- A reading that leaves an end of the text, at least `k` characters on, or has a problem at one. -/
inductive Proceeds {α : Type} (k : Nat) (cs : List Char) : Except Failure (α × List Char) → Prop
  | ok (v : α) {rest : List Char} (hrest : rest <:+ cs) (hlength : rest.length + k ≤ cs.length) :
      Proceeds k cs (.ok (v, rest))
  | malformed (problem : Problem) {rest : List Char} (hrest : rest <:+ cs) :
      Proceeds k cs (.error (.malformed problem rest))
  | oversize (digits : Nat) : Proceeds k cs (.error (.oversize digits))

section Proceeds

variable {α β : Type} {j k : Nat} {cs rest : List Char}

theorem Proceeds.weaken {r : Except Failure (α × List Char)} (h : Proceeds k cs r) (hk : j ≤ k) :
    Proceeds j cs r := by
  cases h with
  | ok v hrest hlength => exact .ok v hrest (by omega)
  | malformed problem hrest => exact .malformed problem hrest
  | oversize digits => exact .oversize digits

theorem Proceeds.after {r : Except Failure (α × List Char)} (h : Proceeds k rest r)
    (hrest : rest <:+ cs) (hlength : rest.length + j ≤ cs.length) : Proceeds (j + k) cs r := by
  cases h with
  | ok v hrest' hlength' => exact .ok v (hrest'.trans hrest) (by omega)
  | malformed problem hrest' => exact .malformed problem (hrest'.trans hrest)
  | oversize digits => exact .oversize digits

theorem Proceeds.bind {x : Except Failure (α × List Char)}
    {next : α × List Char → Except Failure (β × List Char)} (h : Proceeds j cs x)
    (hnext : ∀ v rest, Proceeds k rest (next (v, rest))) : Proceeds (j + k) cs (x >>= next) := by
  cases h with
  | ok v hrest hlength => exact (hnext v _).after hrest hlength
  | malformed problem hrest => exact .malformed problem hrest
  | oversize digits => exact .oversize digits

theorem proceeds_pure (v : α) (cs : List Char) :
    Proceeds 0 cs (pure (v, cs) : Except Failure (α × List Char)) := .ok v (List.suffix_refl cs) (by simp)

theorem Proceeds.of_ok {v : α} (h : Proceeds k cs (.ok (v, rest))) :
    rest <:+ cs ∧ rest.length + k ≤ cs.length := by
  cases h with
  | ok _ hrest hlength => exact ⟨hrest, hlength⟩

theorem skipBlanks_suffix (cs : List Char) : skipBlanks cs <:+ cs := List.dropWhile_suffix _

theorem Proceeds.of_skipBlanks {r : Except Failure (α × List Char)} (h : Proceeds k (skipBlanks cs) r) :
    Proceeds k cs r := by
  have hafter : Proceeds (0 + k) cs r := h.after (skipBlanks_suffix cs) (length_skipBlanks_le cs)
  rwa [Nat.zero_add] at hafter

theorem length_of_next {c : Char} (h : skipBlanks cs = c :: rest) : rest.length + 1 ≤ cs.length := by
  have hle := length_skipBlanks_le cs
  rwa [h, List.length_cons] at hle

/-- A step over one character that comes next. -/
theorem Proceeds.of_next {r : Except Failure (α × List Char)} {c : Char}
    (hskip : skipBlanks cs = c :: rest) (h : Proceeds k rest r) : Proceeds (1 + k) cs r := by
  apply Proceeds.of_skipBlanks
  rw [hskip]
  exact h.after (List.suffix_cons c rest) (by simp)

end Proceeds

theorem word?_proceeds {cs w rest : List Char} (h : word? cs = some (w, rest)) :
    rest <:+ cs ∧ rest.length + 1 ≤ cs.length := by
  cases cs with
  | nil => cases h
  | cons c cs =>
    simp only [word?] at h
    split at h
    · cases h
      have hdrop : cs.dropWhile isWordPart <:+ cs := List.dropWhile_suffix _
      exact ⟨hdrop.trans (List.suffix_cons c cs), by simpa using hdrop.length_le⟩
    · cases h

theorem proceeds_mark (c : Char) (cs : List Char) : Proceeds 1 cs (mark c cs) := by
  unfold mark
  split
  · next d rest hskip =>
    split
    · exact (proceeds_pure () rest).of_next hskip
    · exact .malformed _ (hskip ▸ skipBlanks_suffix cs)
  · exact .malformed _ (List.nil_suffix)

theorem proceeds_stringBody (cs : List Char) : Proceeds 1 cs (stringBody cs) := by
  fun_induction stringBody cs with
  | case1 => exact .malformed _ (List.nil_suffix)
  | case2 cs => exact .ok _ (List.suffix_cons _ cs) (by simp)
  | case3 => exact .malformed _ (List.nil_suffix)
  | case4 e rest _ ih =>
    have hrest : rest <:+ '\\' :: e :: rest := (List.suffix_cons e rest).trans (List.suffix_cons _ _)
    refine Proceeds.weaken (j := 1) (k := 2 + (1 + 0)) (Proceeds.after ?_ hrest (by simp)) (by omega)
    exact ih.bind fun text rest => proceeds_pure _ rest
  | case5 c cs _ _ ih =>
    refine Proceeds.weaken (j := 1) (k := 1 + (1 + 0))
      (Proceeds.after ?_ (List.suffix_cons c cs) (by simp)) (by omega)
    exact ih.bind fun text rest => proceeds_pure _ rest

theorem proceeds_string (cs : List Char) : Proceeds 1 cs (string cs) := by
  have hread : Proceeds (1 + (1 + 0)) cs (string cs) :=
    (proceeds_mark '"' cs).bind fun _ rest =>
      (proceeds_stringBody rest).bind fun _ rest => proceeds_pure _ rest
  exact hread.weaken (by omega)

theorem fraction?_suffix {cs digits rest : List Char} (h : fraction? cs = some (digits, rest)) :
    rest <:+ cs := by
  unfold fraction? at h
  split at h
  · next cs =>
    split at h
    · cases h
    · cases h
      exact (List.dropWhile_suffix _).trans (List.suffix_cons '.' cs)
  · cases h

theorem readSign_suffix (cs : List Char) : (readSign cs).2 <:+ cs := by
  unfold readSign
  split
  · exact List.suffix_cons _ _
  · exact List.suffix_cons _ _
  · exact List.suffix_refl _

theorem exponent?_suffix {cs rest : List Char} {e : Int} (h : exponent? cs = some (e, rest)) :
    rest <:+ cs := by
  cases cs with
  | nil => cases h
  | cons c cs =>
    simp only [exponent?] at h
    split at h
    · split at h
      · cases h
      · cases h
        exact (List.dropWhile_suffix _).trans ((readSign_suffix cs).trans (List.suffix_cons c cs))
    · cases h

theorem dropLongSuffix_suffix (cs : List Char) : dropLongSuffix cs <:+ cs := by
  unfold dropLongSuffix
  split
  · exact List.suffix_cons _ _
  · exact List.suffix_refl _

theorem behind_digits {start body rest : List Char} (hbody : body <:+ start)
    (hne : ¬(body.takeWhile isDecimalDigit).isEmpty = true)
    (hrest : rest <:+ body.dropWhile isDecimalDigit) :
    rest <:+ start ∧ rest.length + 1 ≤ start.length := by
  have hdigits : 0 < (body.takeWhile isDecimalDigit).length := by
    simpa [List.length_pos_iff] using hne
  have hlength := congrArg List.length (List.takeWhile_append_dropWhile (p := isDecimalDigit) (l := body))
  rw [List.length_append] at hlength
  have hshort := hrest.length_le
  have hlong := hbody.length_le
  exact ⟨hrest.trans ((List.dropWhile_suffix _).trans hbody), by omega⟩

theorem getD_fraction?_suffix {cs digits rest : List Char}
    (h : (fraction? cs).getD ([], cs) = (digits, rest)) : rest <:+ cs := by
  cases hfraction : fraction? cs with
  | none =>
    rw [hfraction] at h
    cases h
    exact List.suffix_refl _
  | some p =>
    rw [hfraction] at h
    exact fraction?_suffix (hfraction.trans (congrArg some h))

theorem sign_suffix {start body : List Char} {negative : Bool}
    (h : (match start with
      | '-' :: rest => (true, rest)
      | rest => (false, rest)) = (negative, body)) : start = minusText negative ++ body := by
  split at h <;> cases h <;> rfl

theorem rest_suffix {cs rest : List Char} {e : Option Int}
    (h : (match exponent? cs with
      | some (e, rest) => (some e, rest)
      | none => (none, cs)) = (e, rest)) : rest <:+ cs := by
  split at h
  · next hexponent =>
    cases h
    exact exponent?_suffix hexponent
  · cases h
    exact List.suffix_refl _

theorem proceeds_number (cs : List Char) : Proceeds 1 cs (number cs) := by
  apply Proceeds.of_skipBlanks
  -- every way to go on leaves what stands behind the digits, or less
  have hafter {start body rest afterFraction digits : List Char} {negative : Bool}
      (hsign : start = minusText negative ++ body)
      (hne : ¬(body.takeWhile isDecimalDigit).isEmpty = true)
      (hfraction : (fraction? (body.dropWhile isDecimalDigit)).getD
        ([], body.dropWhile isDecimalDigit) = (digits, afterFraction))
      (hrest : rest <:+ afterFraction) :
      dropLongSuffix rest <:+ start ∧ (dropLongSuffix rest).length + 1 ≤ start.length :=
    behind_digits (hsign ▸ List.suffix_append _ body) hne
      ((dropLongSuffix_suffix rest).trans (hrest.trans (getD_fraction?_suffix hfraction)))
  fun_cases number cs with
  | case1 => exact .malformed _ (List.suffix_refl _)
  | case2 => exact .oversize _
  | case3 start negative body hsign whole after hne digits afterFraction hfraction e rest hexponent =>
    obtain ⟨hrest, hlength⟩ := hafter (sign_suffix hsign) hne hfraction (rest_suffix hexponent)
    exact .ok _ hrest hlength
  | case4 start negative body hsign whole after hne digits afterFraction hfraction e rest hexponent =>
    obtain ⟨hrest, hlength⟩ := hafter (sign_suffix hsign) hne hfraction (rest_suffix hexponent)
    exact .ok _ hrest hlength

theorem proceeds_key (cs : List Char) : Proceeds 1 cs (key cs) := by
  apply Proceeds.of_skipBlanks
  unfold key
  split
  · next hskip =>
    rw [hskip]
    exact proceeds_string _
  · split
    · next hword =>
      obtain ⟨hrest, hlength⟩ := word?_proceeds hword
      exact .ok _ hrest hlength
    · exact .malformed _ (List.suffix_refl _)

theorem proceeds_arrow (cs : List Char) : Proceeds 1 cs (arrow cs) := by
  apply Proceeds.of_skipBlanks
  unfold arrow
  split
  · next hskip =>
    rw [hskip]
    exact .ok () ((List.suffix_cons _ _).trans (List.suffix_cons _ _)) (by simp)
  · next hskip =>
    rw [hskip]
    exact .ok () (List.suffix_cons _ _) (by simp)
  · exact .malformed _ (List.suffix_refl _)

theorem hexByte?_proceeds {cs rest : List Char} {b : UInt8} (h : hexByte? cs = some (b, rest)) :
    rest <:+ cs ∧ rest.length + 1 ≤ cs.length := by
  unfold hexByte? at h
  split at h
  · next c after =>
    have hafter : after <:+ '0' :: 'x' :: c :: after :=
      (List.suffix_cons _ _).trans ((List.suffix_cons _ _).trans (List.suffix_cons _ _))
    have hrest : rest <:+ after := by
      obtain ⟨high, -, h⟩ := Option.bind_eq_some_iff.1 h
      split at h
      · split at h <;> cases h
        · exact List.suffix_cons _ _
        · exact List.suffix_refl _
      · cases h
        exact List.suffix_refl _
    have hlength := hrest.length_le
    exact ⟨hrest.trans hafter, by simp only [List.length_cons]; omega⟩
  · cases h

theorem proceeds_byteItems (bound : Nat) (cs : List Char) : Proceeds 1 cs (byteItems bound cs) := by
  induction bound generalizing cs with
  | zero => exact .malformed _ (skipBlanks_suffix cs)
  | succ bound ih =>
    unfold byteItems
    split
    · next rest hskip => exact (proceeds_pure [] rest).of_next hskip
    · apply Proceeds.of_skipBlanks
      split
      · exact .malformed _ (List.suffix_refl _)
      · next b rest hbyte =>
        obtain ⟨hrest, hlength⟩ := hexByte?_proceeds hbyte
        have hgo {next : List Char} {r : Except Failure (List UInt8 × List Char)}
            (hnext : next <:+ rest) (h : Proceeds (1 + 0) next r) : Proceeds 1 (skipBlanks cs) r := by
          have hshort := hnext.length_le
          have hafter : Proceeds (1 + (1 + 0)) (skipBlanks cs) r := h.after (hnext.trans hrest) (by omega)
          exact hafter.weaken (by omega)
        dsimp only
        split
        · next after hskip =>
          refine hgo ((List.suffix_cons _ _).trans (hskip ▸ skipBlanks_suffix rest)) ?_
          exact (ih _).bind fun bs more => proceeds_pure _ more
        · refine hgo (skipBlanks_suffix rest) ?_
          exact (ih _).bind fun bs more => proceeds_pure _ more

theorem proceeds_bytes (cs : List Char) : Proceeds 1 cs (bytes cs) := by
  have hread : Proceeds (1 + (1 + 0)) cs (bytes cs) :=
    (proceeds_mark '\x7b' cs).bind fun _ rest =>
      (proceeds_byteItems _ rest).bind fun _ rest => proceeds_pure _ rest
  exact hread.weaken (by omega)

theorem proceeds_bigNumber (cs : List Char) : Proceeds 1 cs (bigNumber cs) := by
  apply Proceeds.of_skipBlanks
  unfold bigNumber
  split
  · exact .malformed _ (List.suffix_refl _)
  · next w rest hword =>
    obtain ⟨hrest, hlength⟩ := word?_proceeds hword
    dsimp only
    split
    · exact ((proceeds_number rest).after hrest hlength).weaken (by omega)
    · exact .malformed _ hrest

theorem proceeds_keyword (cs : List Char) : Proceeds 1 cs (keyword cs) := by
  apply Proceeds.of_skipBlanks
  unfold keyword
  split
  · exact .malformed _ (List.suffix_refl _)
  · next w rest hword =>
    obtain ⟨hrest, hlength⟩ := word?_proceeds hword
    dsimp only
    split
    · exact .ok _ hrest hlength
    split
    · exact .ok _ hrest hlength
    split
    · exact .ok _ hrest hlength
    split
    · refine Proceeds.weaken (j := 1) (k := 1 + (1 + 0)) (Proceeds.after ?_ hrest hlength) (by omega)
      exact (proceeds_string rest).bind fun _ rest => proceeds_pure _ rest
    split
    · exact ((proceeds_bytes rest).after hrest hlength).weaken (by omega)
    split
    · exact ((proceeds_bigNumber rest).after hrest hlength).weaken (by omega)
    · exact .malformed _ hrest

section Nested

variable {depth : Nat} (hvalue : ∀ cs, Proceeds 1 cs (value depth cs))
include hvalue

theorem proceeds_items_succ (hitems : ∀ cs, Proceeds 1 cs (listItems depth cs)) (cs : List Char) :
    Proceeds 1 cs (listItems (depth + 1) cs) := by
  unfold listItems
  refine Proceeds.weaken (j := 1) (k := 1 + 0) ((hvalue cs).bind fun v rest => ?_) (by omega)
  dsimp only
  split
  · next after hskip =>
    refine Proceeds.weaken (k := 1 + (1 + 0)) (Proceeds.of_next hskip ?_) (by omega)
    exact (hitems after).bind fun vs rest => proceeds_pure _ rest
  · next after hskip => exact ((proceeds_pure [v] after).of_next hskip).weaken (by omega)
  · exact .malformed _ (skipBlanks_suffix rest)

theorem proceeds_members_succ
    (hmembers : ∀ before cs, Proceeds 1 cs (objectMembers depth before cs)) (before : Members)
    (cs : List Char) : Proceeds 1 cs (objectMembers (depth + 1) before cs) := by
  unfold objectMembers
  refine Proceeds.weaken (j := 1) (k := 1 + (1 + (1 + 0))) ?_ (by omega)
  refine (proceeds_key cs).bind fun name rest => ?_
  refine (proceeds_arrow rest).bind fun _ rest => ?_
  refine (hvalue rest).bind fun v rest => ?_
  dsimp only
  split
  · next after hskip => exact ((hmembers _ after).of_next hskip).weaken (by omega)
  · next after hskip => exact ((proceeds_pure _ after).of_next hskip).weaken (by omega)
  · exact .malformed _ (skipBlanks_suffix rest)

theorem proceeds_value_succ (hitems : ∀ cs, Proceeds 1 cs (listItems depth cs))
    (hmembers : ∀ before cs, Proceeds 1 cs (objectMembers depth before cs)) (cs : List Char) :
    Proceeds 1 cs (value (depth + 1) cs) := by
  rw [value_succ]
  split
  · exact .malformed _ List.nil_suffix
  · next c rest hskip =>
    -- tokens are read from the first character on, all else from the one behind it
    have hfirst {r : Except Failure (Json × List Char)} (h : Proceeds 1 (c :: rest) r) :
        Proceeds 1 cs r := by
      rw [← hskip] at h
      exact h.of_skipBlanks
    split
    · refine hfirst (Proceeds.weaken (k := 1 + 0) ?_ (by omega))
      exact (proceeds_string _).bind fun s rest => proceeds_pure _ rest
    split
    · split
      · next after hclose =>
        refine Proceeds.weaken (k := 1 + (1 + 0)) (Proceeds.of_next hskip ?_) (by omega)
        exact (proceeds_pure _ after).of_next hclose
      · refine Proceeds.weaken (k := 1 + (1 + 0)) (Proceeds.of_next hskip ?_) (by omega)
        refine Proceeds.of_skipBlanks ?_
        exact (hitems _).bind fun vs rest => proceeds_pure _ rest
    split
    · split
      · next after hclose =>
        refine Proceeds.weaken (k := 1 + (1 + 0)) (Proceeds.of_next hskip ?_) (by omega)
        exact (proceeds_pure _ after).of_next hclose
      · refine Proceeds.weaken (k := 1 + (1 + 0)) (Proceeds.of_next hskip ?_) (by omega)
        refine Proceeds.of_skipBlanks ?_
        exact (hmembers _ _).bind fun ms rest => proceeds_pure _ rest
    split
    · refine Proceeds.weaken (k := 1 + (1 + (1 + (1 + (1 + 0))))) (Proceeds.of_next hskip ?_) (by omega)
      refine (proceeds_key rest).bind fun name rest => ?_
      refine (proceeds_arrow rest).bind fun _ rest => ?_
      refine (hvalue rest).bind fun v rest => ?_
      exact (proceeds_mark ')' rest).bind fun _ rest => proceeds_pure _ rest
    split
    · exact hfirst (proceeds_number _)
    · exact hfirst (proceeds_keyword _)

end Nested

theorem proceeds_nested (depth : Nat) :
    (∀ cs, Proceeds 1 cs (value depth cs)) ∧ (∀ cs, Proceeds 1 cs (listItems depth cs)) ∧
      ∀ before cs, Proceeds 1 cs (objectMembers depth before cs) := by
  induction depth with
  | zero =>
    refine ⟨fun cs => ?_, fun cs => ?_, fun before cs => ?_⟩
    · exact .malformed _ (skipBlanks_suffix cs)
    · exact .malformed _ (skipBlanks_suffix cs)
    · exact .malformed _ (skipBlanks_suffix cs)
  | succ depth ih =>
    obtain ⟨hvalue, hitems, hmembers⟩ := ih
    exact ⟨proceeds_value_succ hvalue hitems hmembers, proceeds_items_succ hvalue hitems,
      proceeds_members_succ hvalue hmembers⟩

theorem proceeds_value (depth : Nat) (cs : List Char) : Proceeds 1 cs (value depth cs) :=
  (proceeds_nested depth).1 cs

section Opened

variable {cs rest : List Char}

/-- What opens nothing is a token, or no value at all. -/
theorem value_opensNothing (depth : Nat)
    (h : ∀ c rest, skipBlanks cs = c :: rest → c ∉ ['[', '\x7b', '(']) :
    value (depth + 1) cs = value 1 cs := by
  rw [value_succ, value_succ]
  cases hskip : skipBlanks cs with
  | nil => rfl
  | cons c rest =>
    have hc := h c rest hskip
    simp only [List.mem_cons, List.not_mem_nil, or_false, not_or] at hc
    simp only [hc, if_false]

theorem opensNothing_of_not (hlist : ¬∃ rest, skipBlanks cs = '[' :: rest)
    (hobject : ¬∃ rest, skipBlanks cs = '\x7b' :: rest)
    (hproperty : ¬∃ rest, skipBlanks cs = '(' :: rest) :
    ∀ c rest, skipBlanks cs = c :: rest → c ∉ ['[', '\x7b', '('] := by
  intro c rest h hc
  simp only [List.mem_cons, List.not_mem_nil, or_false] at hc
  rcases hc with rfl | rfl | rfl
  · exact hlist ⟨rest, h⟩
  · exact hobject ⟨rest, h⟩
  · exact hproperty ⟨rest, h⟩

end Opened

theorem value_deeper {depth : Nat} {cs : List Char} (hdepth : 2 * cs.length ≤ depth)
    (hvalue : ∀ cs, 2 * cs.length + 1 ≤ depth → value (depth + 1) cs = value depth cs)
    (hitems : ∀ cs, 2 * cs.length + 2 ≤ depth → listItems (depth + 1) cs = listItems depth cs)
    (hmembers : ∀ before cs, 2 * cs.length + 2 ≤ depth →
      objectMembers (depth + 1) before cs = objectMembers depth before cs) :
    value (depth + 2) cs = value (depth + 1) cs := by
  by_cases hlist : ∃ rest, skipBlanks cs = '[' :: rest
  · obtain ⟨rest, h⟩ := hlist
    have hshort := length_of_next h
    by_cases hclose : ∃ after, skipBlanks rest = ']' :: after
    · obtain ⟨after, hclose⟩ := hclose
      rw [value_emptyList _ h hclose, value_emptyList _ h hclose]
    · have hopen := not_exists.1 hclose
      rw [value_opensList _ h hopen, value_opensList _ h hopen, hitems rest (by omega)]
  by_cases hobject : ∃ rest, skipBlanks cs = '\x7b' :: rest
  · obtain ⟨rest, h⟩ := hobject
    have hshort := length_of_next h
    by_cases hclose : ∃ after, skipBlanks rest = '\x7d' :: after
    · obtain ⟨after, hclose⟩ := hclose
      rw [value_emptyObject _ h hclose, value_emptyObject _ h hclose]
    · have hopen := not_exists.1 hclose
      rw [value_opensObject _ h hopen, value_opensObject _ h hopen, hmembers [] rest (by omega)]
  by_cases hproperty : ∃ rest, skipBlanks cs = '(' :: rest
  · obtain ⟨rest, h⟩ := hproperty
    have hshort := length_of_next h
    rw [value_opensProperty _ h, value_opensProperty _ h]
    apply bind_congr_ok
    rintro ⟨name, afterKey⟩ hkey
    apply bind_congr_ok
    rintro ⟨u, afterArrow⟩ harrow
    have hkeyed := (hkey ▸ proceeds_key rest).of_ok.2
    have harrowed := (harrow ▸ proceeds_arrow afterKey).of_ok.2
    dsimp only at harrowed ⊢
    rw [hvalue afterArrow (by omega)]
  have hnothing := opensNothing_of_not hlist hobject hproperty
  rw [value_opensNothing (depth + 1) hnothing, value_opensNothing depth hnothing]

theorem listItems_deeper {depth : Nat} {cs : List Char} (hdepth : 2 * cs.length + 1 ≤ depth)
    (hvalue : ∀ cs, 2 * cs.length + 1 ≤ depth → value (depth + 1) cs = value depth cs)
    (hitems : ∀ cs, 2 * cs.length + 2 ≤ depth → listItems (depth + 1) cs = listItems depth cs) :
    listItems (depth + 2) cs = listItems (depth + 1) cs := by
  rw [listItems_succ, listItems_succ, hvalue cs hdepth]
  apply bind_congr_ok
  rintro ⟨v, rest⟩ hv
  have hrest := (hv ▸ proceeds_value depth cs).of_ok.2
  dsimp only
  split
  · next after hskip =>
    have hafter := length_of_next hskip
    rw [hitems after (by omega)]
  · rfl
  · rfl

theorem objectMembers_deeper {depth : Nat} {cs : List Char} (hdepth : 2 * cs.length + 1 ≤ depth)
    (hvalue : ∀ cs, 2 * cs.length + 1 ≤ depth → value (depth + 1) cs = value depth cs)
    (hmembers : ∀ before cs, 2 * cs.length + 2 ≤ depth →
      objectMembers (depth + 1) before cs = objectMembers depth before cs) (before : Members) :
    objectMembers (depth + 2) before cs = objectMembers (depth + 1) before cs := by
  rw [objectMembers_succ, objectMembers_succ]
  apply bind_congr_ok
  rintro ⟨name, afterKey⟩ hkey
  apply bind_congr_ok
  rintro ⟨u, afterArrow⟩ harrow
  have hkeyed := (hkey ▸ proceeds_key cs).of_ok.2
  have harrowed := (harrow ▸ proceeds_arrow afterKey).of_ok.2
  dsimp only at harrowed ⊢
  rw [hvalue afterArrow (by omega)]
  apply bind_congr_ok
  rintro ⟨v, rest⟩ hv
  have hrest := (hv ▸ proceeds_value depth afterArrow).of_ok.2
  dsimp only
  split
  · next after hskip =>
    have hafter := length_of_next hskip
    rw [hmembers _ after (by omega)]
  · rfl
  · rfl

theorem nested_deeper (depth : Nat) :
    (∀ cs, 2 * cs.length + 1 ≤ depth → value (depth + 1) cs = value depth cs) ∧
    (∀ cs, 2 * cs.length + 2 ≤ depth → listItems (depth + 1) cs = listItems depth cs) ∧
      ∀ before cs, 2 * cs.length + 2 ≤ depth →
        objectMembers (depth + 1) before cs = objectMembers depth before cs := by
  induction depth with
  | zero => exact ⟨fun cs h => by omega, fun cs h => by omega, fun before cs h => by omega⟩
  | succ depth ih =>
    obtain ⟨hvalue, hitems, hmembers⟩ := ih
    exact ⟨fun cs h => value_deeper (by omega) hvalue hitems hmembers,
      fun cs h => listItems_deeper (by omega) hvalue hitems,
      fun before cs h => objectMembers_deeper (by omega) hvalue hmembers before⟩

/-- A depth that no text of this length exceeds. -/
def depthFor (cs : List Char) : Nat := 2 * cs.length + 2

/-- What deepening by one does not change is the same at all depths from there on. -/
theorem eq_of_deeper {α : Type} (f : Nat → α) {least depth : Nat}
    (hdeeper : ∀ depth, least ≤ depth → f (depth + 1) = f depth) (h : least ≤ depth) :
    f depth = f least := by
  induction h with
  | refl => rfl
  | step hle ih => exact (hdeeper _ hle).trans ih

section Depth

variable {depth : Nat} {cs : List Char}

theorem value_of_depth (h : 2 * cs.length + 1 ≤ depth) : value depth cs = value (depthFor cs) cs := by
  have hsame := eq_of_deeper (fun depth => value depth cs) (fun depth => (nested_deeper depth).1 cs) h
  exact hsame.trans ((nested_deeper _).1 cs (Nat.le_refl _)).symm

theorem listItems_of_depth (h : depthFor cs ≤ depth) : listItems depth cs = listItems (depthFor cs) cs :=
  eq_of_deeper (fun depth => listItems depth cs) (fun depth => (nested_deeper depth).2.1 cs) h

theorem objectMembers_of_depth (before : Members) (h : depthFor cs ≤ depth) :
    objectMembers depth before cs = objectMembers (depthFor cs) before cs :=
  eq_of_deeper (fun depth => objectMembers depth before cs)
    (fun depth => (nested_deeper depth).2.2 before cs) h

end Depth

theorem byteItems_deeper {bound : Nat} {cs : List Char} (h : cs.length + 1 ≤ bound) :
    byteItems (bound + 1) cs = byteItems bound cs := by
  induction bound generalizing cs with
  | zero => omega
  | succ bound ih =>
    rw [byteItems, byteItems]
    split
    · rfl
    · split
      · rfl
      · next b rest hbyte =>
        have hlength := (hexByte?_proceeds hbyte).2
        have hshort := length_skipBlanks_le cs
        dsimp only
        split
        · next after hnext =>
          have hafter := length_of_next hnext
          rw [ih (by omega)]
        · have hblanks := length_skipBlanks_le rest
          rw [ih (by omega)]

theorem byteItems_of_bound {bound : Nat} {cs : List Char} (h : cs.length + 1 ≤ bound) :
    byteItems bound cs = byteItems (cs.length + 1) cs :=
  eq_of_deeper (fun bound => byteItems bound cs) (fun _ => byteItems_deeper) h

end TypedLiteral

end ServerDeploy
