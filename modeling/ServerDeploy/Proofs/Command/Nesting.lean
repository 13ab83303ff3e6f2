import ServerDeploy.Command.Split
import ServerDeploy.Proofs.TypedLiteral.Spelling

/-! Texts that are never cut. A literal closes every quote and bracket that it opens, and a separator
in it stands inside them; such a text stays in one part, and joined parts are cut where they were
joined. -/

namespace ServerDeploy

namespace Command

open TypedLiteral

def isDelimiter (c : Char) : Bool := c == '"' || isOpening c || isClosing c

/-- A character that can be a separator and stands in no word and in no number. -/
structure Separates (sep : Char) : Prop where
  delimiter : isDelimiter sep = false
  word : isWordPart sep = false
  digit : isDecimalDigit sep = false

theorem separates_slash : Separates '/' := ⟨by decide, by decide, by decide⟩

theorem separates_colon : Separates ':' := ⟨by decide, by decide, by decide⟩

theorem separates_comma : Separates ',' := ⟨by decide, by decide, by decide⟩

theorem ne_quote {c : Char} (h : isDelimiter c = false) : c ≠ '"' := by
  rintro rfl
  cases h

theorem not_token_of_isDelimiter {c : Char} (h : isDelimiter c = true) :
    isWordPart c = false ∧ isDecimalDigit c = false ∧ isBlank c = false := by
  simp only [isDelimiter, isOpening, isClosing, Bool.or_eq_true, beq_iff_eq] at h
  rcases h with (rfl | (rfl | rfl) | rfl) | (rfl | rfl) | rfl <;> decide

/-- A text in front of the first part of a scan. -/
def inFirst (cs : List Char) (r : List (List Char) × Nesting) : List (List Char) × Nesting :=
  (cs.foldr extendFirst r.1, r.2)

theorem inFirst_append (xs ys : List Char) (r : List (List Char) × Nesting) :
    inFirst (xs ++ ys) r = inFirst xs (inFirst ys r) := by
  simp [inFirst, List.foldr_append]

theorem inFirst_cons (cs part : List Char) (parts : List (List Char)) (n : Nesting) :
    inFirst cs (part :: parts, n) = ((cs ++ part) :: parts, n) := by
  induction cs with
  | nil => rfl
  | cons c cs ih =>
    have hcons : inFirst (c :: cs) (part :: parts, n) = inFirst [c] (inFirst cs (part :: parts, n)) :=
      inFirst_append [c] cs _
    rw [hcons, ih]
    rfl

theorem scan_cons (sep : Char) {n : Nesting} (hn : n.quoted = false) (c : Char) (cs : List Char) :
    scan sep n (c :: cs) =
      if c = sep ∧ (n.step c).isOutside then
        ([] :: (scan sep (n.step c) cs).1, (scan sep (n.step c) cs).2)
      else inFirst [c] (scan sep (n.step c) cs) := by
  cases cs with
  | nil =>
    simp only [scan]
    split <;> rfl
  | cons d rest =>
    simp only [scan, hn, Bool.false_eq_true, and_false, if_false]
    split <;> rfl

theorem scan_self_quoted (sep : Char) (depth : Int) {c : Char} (hquote : c ≠ '"') (hslash : c ≠ '\\')
    (cs : List Char) :
    scan sep ⟨depth, true⟩ (c :: cs) = inFirst [c] (scan sep ⟨depth, true⟩ cs) := by
  have hstep : Nesting.step ⟨depth, true⟩ c = ⟨depth, true⟩ := by simp [Nesting.step, hquote]
  have hinside : Nesting.isOutside ⟨depth, true⟩ = false := by simp [Nesting.isOutside]
  cases cs with
  | nil =>
    simp only [scan, hstep, hinside, Bool.false_eq_true, and_false, if_false]
    rfl
  | cons d rest =>
    simp only [scan, hslash, false_and, if_false, hstep, hinside, Bool.false_eq_true, and_false]
    rfl

theorem scan_escaped_quoted (sep : Char) (depth : Int) (e : Char) (cs : List Char) :
    scan sep ⟨depth, true⟩ ('\\' :: e :: cs) = inFirst ['\\', e] (scan sep ⟨depth, true⟩ cs) := rfl

theorem scan_spelledChar (sep : Char) (depth : Int) {c : Char} {xs : List Char}
    (h : SpellsChar c xs) (rest : List Char) :
    scan sep ⟨depth, true⟩ (xs ++ rest) = inFirst xs (scan sep ⟨depth, true⟩ rest) := by
  cases h with
  | self hquote hslash => exact scan_self_quoted sep depth hquote hslash rest
  | escaped | newline | tab | carriage => exact scan_escaped_quoted sep depth _ rest

theorem scan_spelledChars (sep : Char) (depth : Int) {s cs : List Char} (h : SpellsChars s cs)
    (rest : List Char) :
    scan sep ⟨depth, true⟩ (cs ++ rest) = inFirst cs (scan sep ⟨depth, true⟩ rest) := by
  induction h with
  | nil => rfl
  | cons hc _ ih => rw [List.append_assoc, scan_spelledChar sep depth hc, ih, inFirst_append]

/-- At this depth the text is never cut and leaves the depth as it was. -/
def Passes (sep : Char) (depth : Int) (cs : List Char) : Prop :=
  ∀ rest, scan sep ⟨depth, false⟩ (cs ++ rest) = inFirst cs (scan sep ⟨depth, false⟩ rest)

theorem passes_nil (sep : Char) (depth : Int) : Passes sep depth [] := fun _ => rfl

theorem Passes.append {sep : Char} {depth : Int} {xs ys : List Char} (hx : Passes sep depth xs)
    (hy : Passes sep depth ys) : Passes sep depth (xs ++ ys) := by
  intro rest
  rw [List.append_assoc, hx, hy, inFirst_append]

theorem passes_char {sep : Char} {depth : Int} {c : Char} (hc : isDelimiter c = false)
    (hne : c ≠ sep ∨ depth ≠ 0) : Passes sep depth [c] := by
  intro rest
  obtain ⟨⟨hquote, hopening⟩, hclosing⟩ : (c ≠ '"' ∧ isOpening c = false) ∧ isClosing c = false := by
    simpa [isDelimiter] using hc
  have hstep : Nesting.step ⟨depth, false⟩ c = ⟨depth, false⟩ := by
    simp [Nesting.step, hquote, hopening, hclosing]
  have hno : ¬(c = sep ∧ Nesting.isOutside ⟨depth, false⟩ = true) := by
    rintro ⟨heq, hout⟩
    exact hne.elim (fun h => h heq) fun h => h (by simpa [Nesting.isOutside] using hout)
  rw [List.singleton_append, scan_cons sep rfl, hstep, if_neg hno]

theorem passes_chars {sep : Char} {depth : Int} {cs : List Char}
    (h : ∀ c ∈ cs, isDelimiter c = false ∧ (c ≠ sep ∨ depth ≠ 0)) : Passes sep depth cs := by
  induction cs with
  | nil => exact passes_nil sep depth
  | cons c cs ih =>
    have hc := h c (by simp)
    exact (passes_char hc.1 hc.2).append (ih fun d hd => h d (by simp [hd]))

theorem passes_enclosed {sep : Char} (hsep : Separates sep) {depth : Int} {left right : Char}
    (hleft : isOpening left = true) (hright : isClosing right = true) {cs : List Char}
    (h : Passes sep (depth + 1) cs) : Passes sep depth (left :: (cs ++ [right])) := by
  intro rest
  have hseps : left ≠ sep ∧ right ≠ sep := by
    constructor
    · rintro rfl
      simpa [isDelimiter, hleft] using hsep.delimiter
    · rintro rfl
      simpa [isDelimiter, hright] using hsep.delimiter
  have hquote : left ≠ '"' ∧ right ≠ '"' := by
    constructor <;> rintro rfl <;> contradiction
  have hopening : isOpening right = false := by
    simp only [isClosing, Bool.or_eq_true, beq_iff_eq] at hright
    rcases hright with (rfl | rfl) | rfl <;> decide
  -- the first bracket takes the scan one level down and the last one back
  have hin : Nesting.step ⟨depth, false⟩ left = ⟨depth + 1, false⟩ := by
    simp [Nesting.step, hquote.1, hleft]
  have hout : Nesting.step ⟨depth + 1, false⟩ right = ⟨depth, false⟩ := by
    simp [Nesting.step, hquote.2, hopening, hright]
  rw [List.cons_append, scan_cons sep rfl, hin, if_neg fun h => hseps.1 h.1, List.append_assoc, h,
    List.singleton_append, scan_cons sep rfl, hout, if_neg fun h => hseps.2 h.1, ← inFirst_append,
    ← inFirst_append, List.singleton_append, List.cons_append]

theorem passes_quoted {sep : Char} (hsep : Separates sep) (depth : Int) {s cs : List Char}
    (h : SpellsChars s cs) : Passes sep depth ('"' :: (cs ++ ['"'])) := by
  intro rest
  have hquote : ('"' : Char) ≠ sep := (ne_quote hsep.delimiter).symm
  have hno : ∀ n : Nesting, ¬('"' = sep ∧ n.isOutside = true) := fun n hn => hquote hn.1
  have hclose : scan sep ⟨depth, true⟩ ('"' :: rest) = inFirst ['"'] (scan sep ⟨depth, false⟩ rest) := by
    have hstep : Nesting.step ⟨depth, true⟩ '"' = ⟨depth, false⟩ := rfl
    cases rest with
    | nil =>
      simp only [scan, hstep, hno, if_false]
      rfl
    | cons d rest =>
      simp only [scan, show ('"' : Char) ≠ '\\' by decide, false_and, if_false, hstep, hno]
      rfl
  have hopen : Nesting.step ⟨depth, false⟩ '"' = ⟨depth, true⟩ := rfl
  rw [List.cons_append, scan_cons sep rfl, hopen, if_neg (hno _), List.append_assoc,
    scan_spelledChars sep depth h, List.singleton_append, hclose, ← inFirst_append,
    ← inFirst_append, List.singleton_append, List.cons_append]

section Literals

variable {sep : Char} (hsep : Separates sep)
include hsep

theorem passes_token (depth : Int) {cs : List Char}
    (h : ∀ c ∈ cs, isWordPart c = true ∨ isDecimalDigit c = true) : Passes sep depth cs := by
  apply passes_chars
  intro c hc
  constructor
  · apply Bool.eq_false_iff.2
    intro hdelimiter
    obtain ⟨hword, hdigit, -⟩ := not_token_of_isDelimiter hdelimiter
    simpa [hword, hdigit] using h c hc
  · left
    rintro rfl
    simpa [hsep.word, hsep.digit] using h c hc

theorem passes_spelledText (depth : Int) {s : String} {cs : List Char} (h : SpellsText s cs) :
    Passes sep depth cs := by
  cases h with
  | quoted h => exact passes_quoted hsep depth h

theorem passes_spelledInt (depth : Int) {n : Int} {cs : List Char} (h : SpellsInt n cs) :
    Passes sep depth cs := by
  cases h with
  | digits negative long hne hdigits hmax =>
    have hminus : Passes sep depth (minusText negative) :=
      passes_token hsep depth (by cases negative <;> simp [minusText, isWordPart])
    have hlong : Passes sep depth (longText long) :=
      passes_token hsep depth (by cases long <;> simp [longText, isWordPart])
    have hds := passes_token hsep depth fun c hc => .inr (hdigits c hc)
    exact hminus.append (hds.append hlong)

theorem passes_spelledKey (depth : Int) {k : String} {cs : List Char} (h : SpellsKey k cs) :
    Passes sep depth cs := by
  cases h with
  | quoted h => exact passes_spelledText hsep depth h
  | bare hc hcs =>
    apply passes_token hsep
    intro d hd
    rcases List.mem_cons.1 hd with rfl | hd
    · exact .inl (isWordPart_of_isWordStart hc)
    · exact .inl (hcs d hd)

end Literals

theorem passes_blanks {sep : Char} {depth : Int} (hdepth : 0 < depth) {ws : List Char}
    (h : AllBlank ws) : Passes sep depth ws := by
  apply passes_chars
  intro c hc
  refine ⟨Bool.eq_false_iff.2 fun hdelimiter => ?_, .inr (by omega)⟩
  have hblank := (not_token_of_isDelimiter hdelimiter).2.2
  rw [h c hc] at hblank
  cases hblank

theorem passes_arrow {sep : Char} {depth : Int} (hdepth : 0 < depth) {cs : List Char}
    (h : SpellsArrow cs) : Passes sep depth cs := by
  apply passes_chars
  intro c hc
  refine ⟨?_, .inr (by omega)⟩
  cases h with
  | arrow =>
    have hmem : c = '=' ∨ c = '>' := by simpa using hc
    rcases hmem with rfl | rfl <;> decide
  | colon =>
    rw [List.mem_singleton.1 hc]
    decide

theorem Passes.more {sep : Char} {depth : Int} (hdepth : 0 < depth) {xs ys : List Char}
    (hx : Passes sep depth xs) (hy : Passes sep depth ys) : Passes sep depth (xs ++ ',' :: ys) :=
  hx.append ((passes_char (by decide) (.inr (by omega))).append hy)

mutual

theorem passes_spelled {sep : Char} (hsep : Separates sep) {v : Json} {cs : List Char} :
    Spells v cs → ∀ depth : Int, 0 ≤ depth → Passes sep depth cs
  | .null, depth, _ => passes_token hsep depth fun c hc => .inl (isWordPart_undefined c hc)
  | .bool b, depth, _ => passes_token hsep depth fun c hc => .inl (isWordPart_boolText b c hc)
  | .int h, depth, _ => passes_spelledInt hsep depth h
  | .text h, depth, _ => passes_spelledText hsep depth h
  | .emptyList h, depth, _ => passes_enclosed hsep rfl rfl (passes_blanks (by omega) h)
  | .list h, depth, _ => passes_enclosed hsep rfl rfl (passes_items hsep h (depth + 1) (by omega))
  | .emptyObject h, depth, _ => passes_enclosed hsep rfl rfl (passes_blanks (by omega) h)
  | .object _ h, depth, _ =>
    passes_enclosed hsep rfl rfl (passes_members hsep h (depth + 1) (by omega))
  | .property h, depth, _ =>
    passes_enclosed hsep rfl rfl (passes_member hsep h (depth + 1) (by omega))

theorem passes_padded {sep : Char} (hsep : Separates sep) {v : Json} {cs : List Char} :
    SpellsPadded v cs → ∀ depth : Int, 0 < depth → Passes sep depth cs
  | .padded hbefore h hafter, depth, hdepth =>
    (passes_blanks hdepth hbefore).append
      ((passes_spelled hsep h depth (by omega)).append (passes_blanks hdepth hafter))

theorem passes_items {sep : Char} (hsep : Separates sep) {items : List Json} {cs : List Char} :
    SpellsItems items cs → ∀ depth : Int, 0 < depth → Passes sep depth cs
  | .last h, depth, hdepth => passes_padded hsep h depth hdepth
  | .more h hrest, depth, hdepth =>
    (passes_padded hsep h depth hdepth).more hdepth (passes_items hsep hrest depth hdepth)

theorem passes_member {sep : Char} (hsep : Separates sep) {k : String} {v : Json} {cs : List Char} :
    SpellsMember k v cs → ∀ depth : Int, 0 < depth → Passes sep depth cs
  | .member hbefore hk hmiddle harrow hv, depth, hdepth =>
    (passes_blanks hdepth hbefore).append ((passes_spelledKey hsep depth hk).append
      ((passes_blanks hdepth hmiddle).append
        ((passes_arrow hdepth harrow).append (passes_padded hsep hv depth hdepth))))

theorem passes_members {sep : Char} (hsep : Separates sep) {members : List (String × Json)}
    {cs : List Char} : SpellsMembers members cs → ∀ depth : Int, 0 < depth → Passes sep depth cs
  | .last h, depth, hdepth => passes_member hsep h depth hdepth
  | .more h hrest, depth, hdepth =>
    (passes_member hsep h depth hdepth).more hdepth (passes_members hsep hrest depth hdepth)

end

theorem scan_joinWith {sep : Char} (hsep : Separates sep) {parts : List (List Char)}
    (hne : parts ≠ []) (h : ∀ part ∈ parts, Passes sep 0 part) :
    scan sep .outside (joinWith sep parts) = (parts, .outside) := by
  induction parts with
  | nil => exact absurd rfl hne
  | cons part parts ih =>
    have hpart : ∀ rest, scan sep .outside (part ++ rest) = inFirst part (scan sep .outside rest) :=
      h part (by simp)
    cases parts with
    | nil =>
      have hend := hpart []
      rw [List.append_nil] at hend
      rw [joinWith, hend]
      simp [scan, inFirst_cons]
    | cons next parts =>
      have hstep : Nesting.step .outside sep = .outside := by
        obtain ⟨⟨hquote, hopening⟩, hclosing⟩ :
            (sep ≠ '"' ∧ isOpening sep = false) ∧ isClosing sep = false := by
          simpa [isDelimiter] using hsep.delimiter
        simp [Nesting.step, Nesting.outside, hquote, hopening, hclosing]
      have hrest := ih (by simp) fun p hp => h p (by simp [hp])
      have hjoin : joinWith sep (part :: next :: parts) =
          part ++ sep :: joinWith sep (next :: parts) := rfl
      rw [hjoin, hpart, scan_cons sep rfl, hstep, if_pos ⟨rfl, rfl⟩, hrest, inFirst_cons,
        List.append_nil]

/-- Cutting undoes joining. -/
theorem split_joinWith {sep : Char} (hsep : Separates sep) {parts : List (List Char)}
    (hne : parts ≠ []) (h : ∀ part ∈ parts, Passes sep 0 part) :
    split sep (joinWith sep parts) = .ok parts := by
  unfold split splitOutside?
  rw [scan_joinWith hsep hne h]
  rfl

end Command

end ServerDeploy
