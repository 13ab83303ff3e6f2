import Mathlib.Algebra.Group.Nat.Defs
import ServerDeploy.Json.Writer
import ServerDeploy.TypedLiteral.Reader

/-! Written tokens as the literal reader sees them. Truth values and integers come back as they were
written, and texts with every escape that the reader does not know replaced by its letters. -/

namespace ServerDeploy

/-- A character that is written as itself or with an escape that the reader knows. -/
def isPlain (c : Char) : Bool :=
  (32 ≤ c.toNat && c.toNat < 127) || c == '\n' || c == '\r' || c == '\t'

namespace TypedLiteral

/-- What the reader makes of a written character: of an escape that it does not know, the letters. -/
def reread (c : Char) : List Char :=
  if isPlain c then [c] else (Json.escapeChar c).filter (· != '\\')

def rereadText (s : String) : String := String.ofList (s.toList.flatMap reread)

def inFront (front : List Char) (r : Except Failure (List Char × List Char)) :
    Except Failure (List Char × List Char) :=
  r.map fun (text, rest) => (front ++ text, rest)

theorem inFront_append (xs ys : List Char) (r : Except Failure (List Char × List Char)) :
    inFront (xs ++ ys) r = inFront xs (inFront ys r) := by
  cases r <;> simp [inFront, Except.map]

theorem stringBody_escaped (e : Char) (cs : List Char) :
    stringBody ('\\' :: e :: cs) = inFront [unescape e] (stringBody cs) := by
  change (stringBody cs >>= fun p => pure (unescape e :: p.1, p.2)) = _
  cases stringBody cs <;> rfl

theorem stringBody_self {c : Char} (hquote : c ≠ '"') (hslash : c ≠ '\\') (cs : List Char) :
    stringBody (c :: cs) = inFront [c] (stringBody cs) := by
  rw [stringBody.eq_def]
  simp only [hquote, hslash, if_false]
  cases stringBody cs <;> rfl

theorem stringBody_selves {xs : List Char} (h : ∀ c ∈ xs, c ≠ '"' ∧ c ≠ '\\') (cs : List Char) :
    stringBody (xs ++ cs) = inFront xs (stringBody cs) := by
  induction xs with
  | nil => cases hs : stringBody cs <;> simp [inFront, Except.map, hs]
  | cons c xs ih =>
    obtain ⟨hquote, hslash⟩ := h c (by simp)
    rw [List.cons_append, stringBody_self hquote hslash, ih fun x hx => h x (by simp [hx]),
      ← inFront_append]
    rfl

theorem digitChar_verbatim (n : Nat) :
    isPlain n.digitChar = true ∧ n.digitChar ≠ '"' ∧ n.digitChar ≠ '\\' := by
  refine ⟨?_, Nat.digitChar_ne '"' (by decide), Nat.digitChar_ne '\\' (by decide)⟩
  by_cases hn : n < 16
  · have small : ∀ d < 16, isPlain (Nat.digitChar d) = true := by decide
    exact small n hn
  · rw [Nat.digitChar_eq_star.2 (by omega)]
    decide

theorem eq_digitChar_of_mem {b n : Nat} (hb : 1 < b) {c : Char} (h : c ∈ Nat.toDigits b n) :
    ∃ d, c = Nat.digitChar d := by
  induction n using Nat.strongRecOn with
  | _ n ih =>
    rw [Nat.toDigits_eq_if hb] at h
    split at h
    · exact ⟨n, by simpa using h⟩
    · rcases List.mem_append.1 h with h | h
      · exact ih _ (Nat.div_lt_self (by omega) hb) h
      · exact ⟨_, by simpa using h⟩

theorem hexDigits_verbatim {width n : Nat} {c : Char} (h : c ∈ hexDigits width n) :
    isPlain c = true ∧ c ≠ '"' ∧ c ≠ '\\' := by
  unfold hexDigits at h
  rcases List.mem_append.1 h with h | h
  · obtain ⟨-, rfl⟩ := List.mem_replicate.1 h
    decide
  · obtain ⟨d, rfl⟩ := eq_digitChar_of_mem (by decide) h
    exact digitChar_verbatim d

theorem filter_unitEscape (n : Nat) :
    (Json.unitEscape n).filter (· != '\\') = 'u' :: hexDigits 4 n := by
  have hall : ∀ c ∈ hexDigits 4 n, (c != '\\') = true := by
    intro c hc
    simpa using (hexDigits_verbatim hc).2.2
  unfold Json.unitEscape
  rw [List.filter_cons_of_neg (by decide), List.filter_cons_of_pos (by decide),
    List.filter_eq_self.2 hall]

theorem stringBody_unitEscape (n : Nat) (cs : List Char) :
    stringBody (Json.unitEscape n ++ cs) = inFront ('u' :: hexDigits 4 n) (stringBody cs) := by
  unfold Json.unitEscape
  rw [List.cons_append, List.cons_append, stringBody_escaped,
    stringBody_selves fun c hc => (hexDigits_verbatim hc).2, ← inFront_append]
  rfl

theorem stringBody_escapeChar (c : Char) (cs : List Char) :
    stringBody (Json.escapeChar c ++ cs) = inFront (reread c) (stringBody cs) := by
  unfold reread Json.escapeChar
  by_cases hquote : c = '"'
  · subst hquote
    exact stringBody_escaped '"' cs
  by_cases hslash : c = '\\'
  · subst hslash
    exact stringBody_escaped '\\' cs
  by_cases hn : c = '\n'
  · subst hn
    exact stringBody_escaped 'n' cs
  by_cases hr : c = '\r'
  · subst hr
    exact stringBody_escaped 'r' cs
  by_cases ht : c = '\t'
  · subst ht
    exact stringBody_escaped 't' cs
  by_cases hprint : (32 ≤ c.toNat && c.toNat < 127) = true
  · have h8 : c.toNat ≠ 8 := by simp at hprint; omega
    have h12 : c.toNat ≠ 12 := by simp at hprint; omega
    simp only [isPlain, hprint, Bool.true_or, if_true, beq_iff_eq, hquote, hslash, hn, hr, ht, h8,
      h12, if_false]
    exact stringBody_self hquote hslash cs
  have hplain : isPlain c = false := by simp [isPlain, hprint, hn, hr, ht]
  simp only [hplain, Bool.false_eq_true, if_false, beq_iff_eq, hquote, hslash, hn, hr, ht, hprint]
  split
  · exact stringBody_escaped 'b' cs
  split
  · exact stringBody_escaped 'f' cs
  split
  · rw [stringBody_unitEscape, filter_unitEscape]
  · rw [List.append_assoc, stringBody_unitEscape, stringBody_unitEscape, List.filter_append,
      filter_unitEscape, filter_unitEscape, inFront_append]

theorem stringBody_quote (rest : List Char) : stringBody ('"' :: rest) = .ok ([], rest) := by
  cases rest <;> rfl

theorem stringBody_escapes (s rest : List Char) :
    stringBody (s.flatMap Json.escapeChar ++ '"' :: rest) = .ok (s.flatMap reread, rest) := by
  induction s with
  | nil => exact stringBody_quote rest
  | cons c s ih =>
    rw [List.flatMap_cons, List.append_assoc, stringBody_escapeChar, ih]
    rfl

theorem toList_stringLiteral (s : String) :
    (Json.stringLiteral s).toList = '"' :: (s.toList.flatMap Json.escapeChar ++ ['"']) := by
  simp [Json.stringLiteral]

theorem string_stringLiteral (s : String) (rest : List Char) :
    string ((Json.stringLiteral s).toList ++ rest) = .ok (rereadText s, rest) := by
  rw [toList_stringLiteral, List.cons_append, List.append_assoc]
  unfold string
  have hmark : mark '"' ('"' :: (s.toList.flatMap Json.escapeChar ++ (['"'] ++ rest))) =
      .ok ((), s.toList.flatMap Json.escapeChar ++ '"' :: rest) := rfl
  rw [hmark]
  simp only [bind, Except.bind]
  rw [stringBody_escapes]
  rfl

theorem isPlain_of_mem_reread {c d : Char} (h : d ∈ reread c) : isPlain d = true := by
  have unit {n : Nat} (h : d ∈ (Json.unitEscape n).filter (· != '\\')) : isPlain d = true := by
    rw [filter_unitEscape] at h
    rcases List.mem_cons.1 h with rfl | h
    · decide
    · exact (hexDigits_verbatim h).1
  unfold reread at h
  split at h
  · next hc =>
    rw [List.mem_singleton.1 h]
    exact hc
  · next hc =>
    simp only [isPlain, Bool.or_eq_true, beq_iff_eq, not_or] at hc
    obtain ⟨⟨⟨hprint, hn⟩, hr⟩, ht⟩ := hc
    have hquote : c ≠ '"' := by rintro rfl; exact hprint (by decide)
    have hslash : c ≠ '\\' := by rintro rfl; exact hprint (by decide)
    unfold Json.escapeChar at h
    simp only [beq_iff_eq, hquote, hslash, hn, hr, ht, hprint, Bool.false_eq_true, if_false] at h
    split at h
    · obtain rfl : d = 'b' := by simpa using h
      decide
    split at h
    · obtain rfl : d = 'f' := by simpa using h
      decide
    split at h
    · exact unit h
    · rw [List.filter_append] at h
      rcases List.mem_append.1 h with h | h <;> exact unit h

def PlainText (s : String) : Prop := ∀ c ∈ s.toList, isPlain c = true

theorem plainText_rereadText (s : String) : PlainText (rereadText s) := by
  intro c hc
  unfold rereadText at hc
  rw [String.toList_ofList] at hc
  obtain ⟨d, -, hd⟩ := List.mem_flatMap.1 hc
  exact isPlain_of_mem_reread hd

theorem rereadText_of_plain {s : String} (h : PlainText s) : rereadText s = s := by
  have hall : ∀ cs : List Char, (∀ c ∈ cs, isPlain c = true) → cs.flatMap reread = cs := by
    intro cs hcs
    induction cs with
    | nil => rfl
    | cons c cs ih =>
      rw [List.flatMap_cons, ih fun d hd => hcs d (by simp [hd])]
      simp [reread, hcs c (by simp)]
  unfold rereadText
  rw [hall _ h, String.ofList_toList]

/-- The text after a value: nothing, or one of the marks that may follow a value. -/
def Delimited (rest : List Char) : Prop :=
  ∀ c ∈ rest.head?, c = ',' ∨ c = ']' ∨ c = '\x7d'

theorem delimited_nil : Delimited [] := by simp [Delimited]

theorem delimited_cons {c : Char} (h : c = ',' ∨ c = ']' ∨ c = '\x7d') (rest : List Char) :
    Delimited (c :: rest) := by simpa [Delimited] using h

/-- A token that stands before this text ends there. -/
def Stops (rest : List Char) : Prop :=
  ∀ c ∈ rest.head?, isWordPart c = false ∧ isDecimalDigit c = false

theorem stops_nil : Stops [] := by simp [Stops]

theorem stops_cons {c : Char} (hword : isWordPart c = false) (hdigit : isDecimalDigit c = false)
    (rest : List Char) : Stops (c :: rest) := by simpa [Stops] using ⟨hword, hdigit⟩

theorem Delimited.stops {rest : List Char} (h : Delimited rest) : Stops rest := by
  intro c hc
  rcases h c hc with rfl | rfl | rfl <;> decide

theorem span_of_head {p : Char → Bool} {xs rest : List Char} (hxs : ∀ c ∈ xs, p c = true)
    (hrest : ∀ c ∈ rest.head?, p c = false) :
    (xs ++ rest).takeWhile p = xs ∧ (xs ++ rest).dropWhile p = rest := by
  have hstop : rest.takeWhile p = [] ∧ rest.dropWhile p = rest := by
    cases rest with
    | nil => exact ⟨rfl, rfl⟩
    | cons c cs =>
      have hc : ¬p c = true := by simpa using hrest c rfl
      exact ⟨List.takeWhile_cons_of_neg hc, List.dropWhile_cons_of_neg hc⟩
  rw [List.takeWhile_append_of_pos hxs, List.dropWhile_append_of_pos hxs, hstop.1, hstop.2]
  simp

theorem isDecimalDigit_of_isDigit {c : Char} (h : c.isDigit = true) : isDecimalDigit c = true := by
  simp [isDecimalDigit, digitValue?, h]

theorem digitsValue_toDigits (n : Nat) : digitsValue (Nat.toDigits 10 n) = n := by
  have hfold : ∀ (cs : List Char) (m : Nat), (∀ c ∈ cs, c.isDigit = true) →
      cs.foldl (fun n c => 10 * n + (digitValue? c).getD 0) m = Nat.ofDigitChars 10 cs m := by
    intro cs
    induction cs with
    | nil => simp
    | cons c cs ih =>
      intro m hcs
      rw [List.foldl_cons, ih _ fun d hd => hcs d (by simp [hd]), Nat.ofDigitChars_cons]
      simp [digitValue?, hcs c (by simp)]
  unfold digitsValue
  rw [hfold _ _ fun c hc => Nat.isDigit_of_mem_toDigits (by decide) (by decide) hc,
    Nat.ofDigitChars_ten_toDigits]

theorem toDigits_length_le {n : Nat} (h : n < 10 ^ maxIntegerDigits) :
    (Nat.toDigits 10 n).length ≤ maxIntegerDigits :=
  (Nat.length_toDigits_le_iff (by decide) (by decide)).2 h

theorem no_suffix {rest : List Char} (h : Stops rest) :
    fraction? rest = none ∧ exponent? rest = none ∧ dropLongSuffix rest = rest := by
  cases rest with
  | nil => exact ⟨rfl, rfl, rfl⟩
  | cons c cs =>
    have hne : ∀ d : Char, isWordPart d = true → c ≠ d := by
      rintro d hd rfl
      rw [(h c rfl).1] at hd
      cases hd
    refine ⟨?_, ?_, ?_⟩
    · unfold fraction?
      split
      · next heq => exact absurd (List.cons.inj heq).1 (hne '.' (by decide))
      · rfl
    · simp only [exponent?, hne 'e' (by decide), hne 'E' (by decide), or_self, if_false]
    · unfold dropLongSuffix
      split
      · next heq => exact absurd (List.cons.inj heq).1 (hne 'L' (by decide))
      · rfl

theorem exists_toDigits (n : Nat) :
    ∃ c cs, Nat.toDigits 10 n = c :: cs ∧ c.isDigit = true := by
  obtain ⟨c, cs, hcs⟩ := List.exists_cons_of_ne_nil (Nat.toDigits_ne_nil (n := n) (b := 10))
  exact ⟨c, cs, hcs, Nat.isDigit_of_mem_toDigits (b := 10) (n := n) (by decide) (by decide) (by simp [hcs])⟩

theorem isBlank_of_isDigit {c : Char} (h : c.isDigit = true) : isBlank c = false := by
  have hc : 48 ≤ c.toNat ∧ c.toNat ≤ 57 := by simpa [Char.isDigit, UInt32.le_iff_toNat_le] using h
  simp [isBlank]
  omega

theorem isBlank_of_isDecimalDigit {c : Char} (h : isDecimalDigit c = true) : isBlank c = false := by
  unfold isDecimalDigit digitValue? at h
  split at h
  · next hc => exact isBlank_of_isDigit hc
  split at h
  · cases h
  rw [Option.isSome_map, List.find?_isSome] at h
  obtain ⟨z, hz, hrange⟩ := h
  -- the blanks stand in the gaps between the digits of the scripts
  have apart : ∀ z ∈ digitZeros, z = 0x30 ∨ (0x660 ≤ z ∧ z + 10 ≤ 0x1680) ∨
      (0x1681 ≤ z ∧ z + 10 ≤ 0x2000) ∨ 0x3001 ≤ z := by decide
  have hgap := apart z hz
  simp only [Bool.and_eq_true, decide_eq_true_eq] at hrange
  simp only [isBlank, Bool.or_eq_false_iff, Bool.and_eq_false_iff, decide_eq_false_iff_not,
    beq_eq_false_iff_ne]
  omega

def minusText (negative : Bool) : List Char := if negative then ['-'] else []

def longText (long : Bool) : List Char := if long then ['L'] else []

theorem number_integer (negative long : Bool) {digits rest : List Char} (hne : digits ≠ [])
    (hdigits : ∀ c ∈ digits, isDecimalDigit c = true) (hmax : digits.length ≤ maxIntegerDigits)
    (hrest : Stops rest) :
    number (minusText negative ++ (digits ++ (longText long ++ rest))) =
      .ok (.int (if negative then -digitsValue digits else digitsValue digits), rest) := by
  have hsuffix : fraction? (longText long ++ rest) = none ∧
      exponent? (longText long ++ rest) = none ∧
        dropLongSuffix (longText long ++ rest) = rest := by
    cases long with
    | false => exact no_suffix hrest
    | true => exact ⟨rfl, rfl, rfl⟩
  have hhead : ∀ c ∈ (longText long ++ rest).head?, isDecimalDigit c = false := by
    cases long with
    | false => exact fun c hc => (hrest c hc).2
    | true =>
      intro c hc
      obtain rfl : 'L' = c := by simpa [longText] using hc
      decide
  obtain ⟨htake, hdrop⟩ := span_of_head hdigits hhead
  have hempty : digits.isEmpty = false := List.isEmpty_eq_false_iff.2 hne
  have hlength : ¬maxIntegerDigits < digits.length := Nat.not_lt.2 hmax
  unfold number
  cases negative with
  | true =>
    have hskip : skipBlanks (minusText true ++ (digits ++ (longText long ++ rest))) =
        '-' :: (digits ++ (longText long ++ rest)) := skipBlanks_cons_of_not_blank (by decide)
    rw [hskip]
    simp only [htake, hdrop, hsuffix, hempty, hlength, Option.getD_none]
    rfl
  | false =>
    obtain ⟨c, cs, rfl⟩ := List.exists_cons_of_ne_nil hne
    have hc := hdigits c (by simp)
    have hminus : c ≠ '-' := by
      rintro rfl
      exact absurd hc (by decide)
    have hskip : skipBlanks (minusText false ++ (c :: cs ++ (longText long ++ rest))) =
        c :: cs ++ (longText long ++ rest) :=
      skipBlanks_cons_of_not_blank (isBlank_of_isDecimalDigit hc)
    rw [hskip]
    dsimp only
    split
    · next heq => exact absurd (List.cons.inj heq).1 hminus
    · simp only [htake, hdrop, hsuffix, hempty, hlength, Option.getD_none]
      rfl

theorem number_digits {n : Nat} (h : n < 10 ^ maxIntegerDigits) {rest : List Char}
    (hrest : Stops rest) : number (Nat.toDigits 10 n ++ rest) = .ok (.int n, rest) ∧
      number ('-' :: (Nat.toDigits 10 n ++ rest)) = .ok (.int (-n), rest) := by
  have hread := fun negative => number_integer negative false Nat.toDigits_ne_nil
    (fun c hc => isDecimalDigit_of_isDigit (Nat.isDigit_of_mem_toDigits (by decide) (by decide) hc))
    (toDigits_length_le h) hrest
  rw [digitsValue_toDigits] at hread
  exact ⟨hread false, hread true⟩

theorem word?_append {c : Char} {cs rest : List Char} (hc : isWordStart c = true)
    (hcs : ∀ d ∈ cs, isWordPart d = true) (hrest : Stops rest) :
    word? (c :: (cs ++ rest)) = some (c :: cs, rest) := by
  obtain ⟨htake, hdrop⟩ := span_of_head hcs fun d hd => (hrest d hd).1
  simp only [word?, hc, htake, hdrop, if_true]

theorem keyword_bool (b : Bool) {rest : List Char} (hrest : Stops rest) :
    keyword ((Json.boolText b).toList ++ rest) = .ok (.bool b, rest) := by
  cases b with
  | true =>
    have hword : word? (skipBlanks ("true".toList ++ rest)) = some ("true".toList, rest) :=
      word?_append (c := 't') (by decide) (List.all_eq_true.mp (by decide)) hrest
    change keyword ("true".toList ++ rest) = _
    unfold keyword
    rw [hword]
    rfl
  | false =>
    have hword : word? (skipBlanks ("false".toList ++ rest)) = some ("false".toList, rest) :=
      word?_append (c := 'f') (by decide) (List.all_eq_true.mp (by decide)) hrest
    change keyword ("false".toList ++ rest) = _
    unfold keyword
    rw [hword]
    rfl

theorem keyword_undefined {rest : List Char} (hrest : Stops rest) :
    keyword ("undefined".toList ++ rest) = .ok (.null, rest) := by
  have hword : word? (skipBlanks ("undefined".toList ++ rest)) = some ("undefined".toList, rest) :=
    word?_append (c := 'u') (by decide) (List.all_eq_true.mp (by decide)) hrest
  unfold keyword
  rw [hword]
  rfl

end TypedLiteral

end ServerDeploy
