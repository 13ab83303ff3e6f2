import Mathlib.Data.List.Forall2
import ServerDeploy.Command.Reader
import ServerDeploy.Proofs.Command.Nesting
import ServerDeploy.Proofs.Text.Cuts

/-! Commands written with quoted address values and parameters as literals. Reading such a command
gives the operation, the address and the parameters that were written, whatever the values hold. -/

namespace ServerDeploy

namespace Command

open TypedLiteral

def Word (s : String) : Prop := s.toList ≠ [] ∧ ∀ c ∈ s.toList, c.isAlphanum = true ∨ c = '-'

theorem word_iff {s : String} :
    Word s ↔ s.toList ≠ [] ∧ s.toList.all (fun c => c.isAlphanum || c == '-') = true := by
  simp [Word]

instance : DecidablePred Word := fun _ => decidable_of_iff _ word_iff.symm

def quoteChar (c : Char) : List Char :=
  if c = '\\' then ['\\', '\\'] else if c = '"' then ['\\', '"'] else [c]

def quoted (s : String) : List Char := '"' :: (s.toList.flatMap quoteChar ++ ['"'])

def nodeText (segment : String × String) : List Char :=
  segment.1.toList ++ '=' :: quoted segment.2

def addressText (segments : List (String × String)) : List Char :=
  segments.flatMap fun segment => '/' :: nodeText segment

/-- A parameter, its name before an equals sign and any spelling of its value. -/
inductive SpellsParameter : String × Json → List Char → Prop
  | parameter {k : String} {v : Json} {cs : List Char} (hk : Word k) (h : Spells v cs) :
      SpellsParameter (k, v) (k.toList ++ '=' :: cs)

def requestText (name : String) : List (List Char) → List Char
  | [] => name.toList
  | part :: parts => name.toList ++ '(' :: (joinWith ',' (part :: parts) ++ [')'])

/-- The command with the texts of its parameters. -/
def commandText (segments : List (String × String)) (name : String) (parts : List (List Char)) :
    List Char :=
  addressText segments ++ ':' :: requestText name parts

theorem Word.token {s : String} (h : Word s) : ∀ c ∈ s.toList, isWordPart c = true := by
  intro c hc
  rcases h.2 c hc with halpha | rfl
  · simp [isWordPart, halpha]
  · decide

theorem Word.firm {s : String} (h : Word s) : Firm s.toList :=
  firm_of_all fun c hc => isBlank_of_isWordPart (h.token c hc)

theorem Word.passes {s : String} (h : Word s) {sep : Char} (hsep : Separates sep) (depth : Int) :
    Passes sep depth s.toList := passes_token hsep depth fun c hc => .inl (h.token c hc)

theorem Word.firm_assigned {s : String} (h : Word s) {cs : List Char} (hcs : Firm cs) :
    Firm (s.toList ++ '=' :: cs) := by
  have hequals : Firm ['='] := firm_char (by decide)
  exact h.firm.append (hequals.append hcs)

theorem Word.passes_assigned {s : String} (h : Word s) {sep : Char} (hsep : Separates sep)
    (hne : sep ≠ '=') {depth : Int} {cs : List Char} (hcs : Passes sep depth cs) :
    Passes sep depth (s.toList ++ '=' :: cs) := by
  have hequals : Passes sep depth ['='] := passes_char (by decide) (.inl hne.symm)
  exact (h.passes hsep depth).append (hequals.append hcs)

theorem Word.not_mem {s : String} (h : Word s) {c : Char} (hc : isWordPart c = false) :
    c ∉ s.toList := by
  intro hmem
  rw [h.token c hmem] at hc
  cases hc

theorem Word.isEmpty {s : String} (h : Word s) : s.toList.isEmpty = false :=
  List.isEmpty_eq_false_iff.2 h.1

theorem spells_quoteChars (s : List Char) : SpellsChars s (s.flatMap quoteChar) := by
  induction s with
  | nil => exact .nil
  | cons c s ih =>
    have hc : SpellsChar c (quoteChar c) := by
      by_cases hslash : c = '\\'
      · subst hslash
        exact .escaped (by decide) (by decide) (by decide)
      by_cases hquote : c = '"'
      · subst hquote
        exact .escaped (by decide) (by decide) (by decide)
      · simp only [quoteChar, hslash, hquote, if_false]
        exact .self hquote hslash
    exact .cons hc ih

theorem quote_not_head (s : List Char) : '"' ∉ (s.flatMap quoteChar).head? := by
  cases s with
  | nil => simp
  | cons c s =>
    rw [List.flatMap_cons]
    unfold quoteChar
    split
    · simp
    split
    · simp
    · next hquote => simpa using hquote

def doubleSlash (c : Char) : List Char := if c = '\\' then ['\\', '\\'] else [c]

/-- Replacing the escaped quotes first does no harm: a backslash before a quote is always the one that
escapes it. -/
theorem replacePair_quotes (s : List Char) :
    replacePair '\\' '"' '"' (s.flatMap quoteChar) = s.flatMap doubleSlash := by
  induction s with
  | nil => rfl
  | cons c s ih =>
    rw [List.flatMap_cons, List.flatMap_cons]
    by_cases hslash : c = '\\'
    · subst hslash
      -- what follows the second backslash starts with no quote: a quote has a backslash of its own
      change replacePair '\\' '"' '"' ('\\' :: '\\' :: s.flatMap quoteChar) = _
      rw [replacePair_of_next _ (by simp), replacePair_of_next _ (quote_not_head s), ih]
      rfl
    by_cases hquote : c = '"'
    · subst hquote
      change replacePair '\\' '"' '"' ('\\' :: '"' :: s.flatMap quoteChar) = _
      rw [replacePair_pair, ih]
      rfl
    · simp only [quoteChar, doubleSlash, hslash, hquote, if_false, List.singleton_append]
      rw [replacePair_of_ne hslash, ih]

theorem replacePair_slashes (s : List Char) :
    replacePair '\\' '\\' '\\' (s.flatMap doubleSlash) = s := by
  induction s with
  | nil => rfl
  | cons c s ih =>
    rw [List.flatMap_cons]
    by_cases hslash : c = '\\'
    · subst hslash
      change replacePair '\\' '\\' '\\' ('\\' :: '\\' :: s.flatMap doubleSlash) = _
      rw [replacePair_pair, ih]
    · simp only [doubleSlash, hslash, if_false, List.singleton_append]
      rw [replacePair_of_ne hslash, ih]

theorem unquote_quoted (s : String) : unquote (quoted s) = s.toList := by
  have hlast : ((s.toList.flatMap quoteChar ++ ['"']).getLast? == some '"') = true := by
    rw [List.getLast?_concat]
    decide
  unfold unquote quoted
  simp only [hlast, if_true, List.dropLast_concat]
  rw [replacePair_quotes, replacePair_slashes]

theorem firm_quoted (s : String) : Firm (quoted s) := firm_enclosed (by decide) (by decide) _

theorem nodeSegment_nodeText (command : String) {k v : String} (hk : Word k) (hv : v.toList ≠ []) :
    nodeSegment command (nodeText (k, v)) = .ok (k, v) := by
  have hcut : cutAtChar '=' (nodeText (k, v)) = (k.toList, some (quoted v)) :=
    cutAtChar_append (hk.not_mem (by decide)) _
  have hempty : v.toList.isEmpty = false := List.isEmpty_eq_false_iff.2 hv
  unfold nodeSegment
  rw [hcut]
  simp only [(firm_quoted v).trim, unquote_quoted, hk.isEmpty, hempty, hk.firm.trim, Bool.or_self,
    Bool.false_eq_true, if_false, String.ofList_toList]

theorem nodeSegments_nodeText (command : String) {segments : List (String × String)}
    (h : ∀ segment ∈ segments, Word segment.1 ∧ segment.2.toList ≠ []) :
    nodeSegments command (segments.map nodeText) = .ok segments := by
  induction segments with
  | nil => rfl
  | cons segment segments ih =>
    obtain ⟨hk, hv⟩ := h segment (by simp)
    have hrest := ih fun s hs => h s (by simp [hs])
    simp only [List.map_cons, nodeSegments, nodeSegment_nodeText command hk hv, hrest]
    rfl

theorem addressText_cons (segment : String × String) (segments : List (String × String)) :
    addressText (segment :: segments) =
      '/' :: joinWith '/' ((segment :: segments).map nodeText) := by
  induction segments generalizing segment with
  | nil => simp [addressText, joinWith]
  | cons next segments ih =>
    have hrest := ih next
    simp only [addressText, List.flatMap_cons, List.map_cons] at hrest ⊢
    rw [hrest]
    rfl

section Address

variable {segments : List (String × String)}
  (h : ∀ segment ∈ segments, Word segment.1 ∧ segment.2.toList ≠ [])
include h

theorem passes_nodeText {sep : Char} (hsep : Separates sep) (hne : sep ≠ '=') :
    ∀ segment ∈ segments, Passes sep 0 (nodeText segment) := by
  intro segment hsegment
  have hvalue : Passes sep 0 (quoted segment.2) := passes_quoted hsep 0 (spells_quoteChars _)
  exact (h segment hsegment).1.passes_assigned hsep hne hvalue

theorem firm_addressText : Firm (addressText segments) := by
  induction segments with
  | nil => exact firm_nil
  | cons segment segments ih =>
    have hslash : Firm ['/'] := firm_char (by decide)
    have hnode : Firm (nodeText segment) :=
      (h segment (by simp)).1.firm_assigned (firm_quoted segment.2)
    exact (hslash.append hnode).append (ih fun s hs => h s (by simp [hs]))

theorem passes_addressText : Passes ':' 0 (addressText segments) := by
  have hnodes := passes_nodeText h separates_colon (by decide)
  clear h
  induction segments with
  | nil => exact passes_nil _ _
  | cons segment segments ih =>
    have hslash : Passes ':' 0 ['/'] := passes_char (by decide) (.inl (by decide))
    exact (hslash.append (hnodes segment (by simp))).append
      (ih fun s hs => hnodes s (by simp [hs]))

theorem readAddress_addressText (command : String) :
    readAddress command (addressText segments) = .ok ⟨segments⟩ := by
  unfold readAddress
  rw [(firm_addressText h).trim]
  cases segments with
  | nil => rfl
  | cons segment segments =>
    have hsplit : split '/' (joinWith '/' ((segment :: segments).map nodeText)) =
        .ok ((segment :: segments).map nodeText) := by
      apply split_joinWith separates_slash (by simp)
      intro part hpart
      obtain ⟨s, hs, rfl⟩ := List.mem_map.1 hpart
      exact passes_nodeText h separates_slash (by decide) s hs
    rw [addressText_cons]
    -- of the forms that an address may have, only the slash with nodes behind it is left
    split
    · next heq => cases heq
    · next heq => exact absurd (List.cons.inj heq).2 (joinWith_ne_nil (by simp [nodeText]))
    · next heq =>
      obtain rfl := (List.cons.inj heq).2
      rw [hsplit]
      simp only [bind, Except.bind, nodeSegments_nodeText command h]
      rfl
    · next hno => exact absurd rfl (hno _)

end Address

theorem firm_spelledInt {n : Int} {cs : List Char} (h : SpellsInt n cs) : Firm cs := by
  cases h with
  | digits negative long hne hdigits hmax =>
    have hminus : Firm (minusText negative) := by
      cases negative with
      | true => exact firm_char (by decide)
      | false => exact firm_nil
    have hlong : Firm (longText long) := by
      cases long with
      | true => exact firm_char (by decide)
      | false => exact firm_nil
    have hds := firm_of_all fun c hc => isBlank_of_isDecimalDigit (hdigits c hc)
    exact hminus.append (hds.append hlong)

theorem firm_spelled {v : Json} {cs : List Char} (h : Spells v cs) : Firm cs := by
  cases h with
  | null => exact firm_of_all fun c hc => isBlank_of_isWordPart (isWordPart_undefined c hc)
  | bool b => exact firm_of_all fun c hc => isBlank_of_isWordPart (isWordPart_boolText b c hc)
  | int h => exact firm_spelledInt h
  | text h =>
    cases h with
    | quoted h => exact firm_enclosed (by decide) (by decide) _
  | emptyList | list | emptyObject | object | property =>
    exact firm_enclosed (by decide) (by decide) _

theorem firm_parameter {p : String × Json} {part : List Char} (h : SpellsParameter p part) :
    Firm part := by
  cases h with
  | parameter hk h => exact hk.firm_assigned (firm_spelled h)

theorem passes_parameter {sep : Char} (hsep : Separates sep) (hne : sep ≠ '=')
    {p : String × Json} {part : List Char} (h : SpellsParameter p part) {depth : Int}
    (hdepth : 0 ≤ depth) : Passes sep depth part := by
  cases h with
  | parameter hk h => exact hk.passes_assigned hsep hne (passes_spelled hsep h depth hdepth)

theorem firm_joinWith {sep : Char} (hsep : isBlank sep = false) {parts : List (List Char)}
    (h : ∀ part ∈ parts, Firm part) : Firm (joinWith sep parts) := by
  induction parts with
  | nil => exact firm_nil
  | cons part parts ih =>
    have hrest := ih fun p hp => h p (by simp [hp])
    cases parts with
    | nil => exact h part (by simp)
    | cons next parts => exact (h part (by simp)).append ((firm_char hsep).append hrest)

theorem passes_joinWith {sep : Char} {depth : Int} (hdepth : 0 < depth) {parts : List (List Char)}
    (h : ∀ part ∈ parts, Passes sep depth part) : Passes sep depth (joinWith ',' parts) := by
  induction parts with
  | nil => exact passes_nil _ _
  | cons part parts ih =>
    have hrest := ih fun p hp => h p (by simp [hp])
    cases parts with
    | nil => exact h part (by simp)
    | cons next parts => exact (h part (by simp)).more hdepth hrest

theorem readParameter_spelled (command : String) {p : String × Json} {part : List Char}
    (h : SpellsParameter p part) : readParameter command part = .ok p := by
  cases h with
  | @parameter k v cs hk h =>
    have hcut : cutAtChar '=' (k.toList ++ '=' :: cs) = (k.toList, some cs) :=
      cutAtChar_append (hk.not_mem (by decide)) cs
    have hvalue : readValue cs = .ok v := by
      unfold readValue
      rw [(firm_spelled h).trim, read_spelled h.tight]
    unfold readParameter
    simp only [hcut, hk.firm.trim, hk.isEmpty, Bool.false_eq_true, if_false, hvalue,
      String.ofList_toList]
    rfl

theorem firm_requestText {name : String} (hname : Word name) (parts : List (List Char)) :
    Firm (requestText name parts) := by
  cases parts with
  | nil => exact hname.firm
  | cons part parts => exact hname.firm.append (firm_enclosed (by decide) (by decide) _)

section Request

variable {params : List (String × Json)} {parts : List (List Char)}
  (h : List.Forall₂ SpellsParameter params parts)
include h

theorem readParameters_spelled (command : String) : readParameters command parts = .ok params := by
  induction h with
  | nil => rfl
  | cons hpart _ ih =>
    simp only [readParameters, readParameter_spelled command hpart, ih]
    rfl

theorem exists_parameter {part : List Char} (hpart : part ∈ parts) :
    ∃ p, SpellsParameter p part := by
  induction h with
  | nil => cases hpart
  | cons hp _ ih =>
    rcases List.mem_cons.1 hpart with rfl | hpart
    · exact ⟨_, hp⟩
    · exact ih hpart

theorem firm_parts : ∀ part ∈ parts, Firm part := by
  intro part hpart
  obtain ⟨p, hp⟩ := exists_parameter h hpart
  exact firm_parameter hp

theorem passes_parts {sep : Char} (hsep : Separates sep) (hne : sep ≠ '=') {depth : Int}
    (hdepth : 0 ≤ depth) : ∀ part ∈ parts, Passes sep depth part := by
  intro part hpart
  obtain ⟨p, hp⟩ := exists_parameter h hpart
  exact passes_parameter hsep hne hp hdepth

theorem part_ne_nil : ∀ part ∈ parts, part ≠ [] := by
  intro part hpart
  obtain ⟨p, hp⟩ := exists_parameter h hpart
  cases hp
  simp

theorem passes_requestText {name : String} (hname : Word name) :
    Passes ':' 0 (requestText name parts) := by
  have hparts : Passes ':' (0 + 1) (joinWith ',' parts) :=
    passes_joinWith (by decide) (passes_parts h separates_colon (by decide) (by decide))
  cases parts with
  | nil => exact hname.passes separates_colon 0
  | cons part parts =>
    exact (hname.passes separates_colon 0).append (passes_enclosed separates_colon rfl rfl hparts)

theorem readRequest_requestText (command : String) {name : String} (hname : Word name) :
    readRequest command (requestText name parts) = .ok (name.toList, params) := by
  have hopen : '(' ∉ name.toList := hname.not_mem (by decide)
  have hparameters := readParameters_spelled h command
  have hfirm : Firm (joinWith ',' parts) := firm_joinWith (by decide) (firm_parts h)
  have hpasses := passes_parts h separates_comma (by decide) (show (0 : Int) ≤ 0 by decide)
  have hnil := part_ne_nil h
  unfold readRequest
  cases parts with
  | nil =>
    cases h
    rw [requestText, cutAtChar_of_not_mem hopen]
  | cons part parts =>
    have hjoined : (joinWith ',' (part :: parts)).isEmpty = false :=
      List.isEmpty_eq_false_iff.2 (joinWith_ne_nil (hnil part (by simp)))
    have hlast : (name.toList ++ '(' :: (joinWith ',' (part :: parts) ++ [')'])).getLast? =
        some ')' := by
      rw [← List.cons_append, ← List.append_assoc, List.getLast?_concat]
    have hsplit := split_joinWith separates_comma (by simp) hpasses
    rw [requestText, cutAtChar_append hopen]
    simp only [hlast, if_false, List.dropLast_concat, hfirm.trim, hjoined,
      Bool.false_eq_true, hsplit, hparameters, hname.firm.trim]
    rfl

end Request

section Command

variable {segments : List (String × String)} {name : String} {params : List (String × Json)}
  {parts : List (List Char)}

theorem read_of_parts
    (hsegments : ∀ segment ∈ segments, Word segment.1 ∧ segment.2.toList ≠ [])
    (hname : Word name) (hdistinct : ("operation" :: "address" :: params.map (·.1)).Nodup)
    (h : List.Forall₂ SpellsParameter params parts) :
    read (String.ofList (commandText segments name parts)) =
      .ok (("operation", .str name) ::
        ("address", AddressOf.model (α := String) ⟨segments⟩) :: params) := by
  have hcolon : Firm [':'] := firm_char (by decide)
  have hfirm : Firm (commandText segments name parts) :=
    (firm_addressText hsegments).append (hcolon.append (firm_requestText hname parts))
  have hsplit : split ':' (commandText segments name parts) =
      .ok [addressText segments, requestText name parts] := by
    change split ':' (joinWith ':' [addressText segments, requestText name parts]) = _
    apply split_joinWith separates_colon (by simp)
    intro part hpart
    simp only [List.mem_cons, List.not_mem_nil, or_false] at hpart
    rcases hpart with rfl | rfl
    · exact passes_addressText hsegments
    · exact passes_requestText h hname
  have hdrop : (commandText segments name parts).drop ((addressText segments).length + 1) =
      requestText name parts := by
    unfold commandText
    rw [← List.drop_drop, List.drop_left, List.drop_one, List.tail_cons]
  have hset : Members.setAll (Operation.make name ⟨segments⟩ []) params =
      Operation.make name ⟨segments⟩ [] ++ params := Members.setAll_of_nodup hdistinct
  unfold read
  rw [String.toList_ofList]
  simp only [hfirm.trim, hsplit, readAddress_addressText hsegments, hdrop,
    (firm_requestText hname parts).trim, readRequest_requestText h _ hname, bind, Except.bind,
    hname.isEmpty, Bool.false_eq_true, if_false, String.ofList_toList, hset]
  rfl

theorem exists_parts (hparams : ∀ p ∈ params, Word p.1 ∧ Literal p.2) :
    ∃ parts, List.Forall₂ SpellsParameter params parts := by
  induction params with
  | nil => exact ⟨[], .nil⟩
  | cons p params ih =>
    obtain ⟨hword, hliteral⟩ := hparams p (by simp)
    obtain ⟨cs, hcs⟩ := exists_spells p.2 hliteral
    obtain ⟨parts, hparts⟩ := ih fun q hq => hparams q (by simp [hq])
    exact ⟨_, .cons (.parameter hword hcs) hparts⟩

/-- Any such operation can be written as a command, and however its parameter values are spelled, the
command is read as exactly the name, the address and the parameters that were written. -/
theorem read_commandText
    (hsegments : ∀ segment ∈ segments, Word segment.1 ∧ segment.2 ≠ "")
    (hname : Word name) (hparams : ∀ p ∈ params, Word p.1 ∧ Literal p.2)
    (hdistinct : ("operation" :: "address" :: params.map (·.1)).Nodup) :
    (∃ parts, List.Forall₂ SpellsParameter params parts) ∧
      ∀ parts, List.Forall₂ SpellsParameter params parts →
        read (String.ofList (commandText segments name parts)) =
          .ok (("operation", .str name) ::
            ("address", AddressOf.model (α := String) ⟨segments⟩) :: params) := by
  refine ⟨exists_parts hparams, fun parts h => read_of_parts (fun segment hsegment => ?_) hname hdistinct h⟩
  obtain ⟨hword, hvalue⟩ := hsegments segment hsegment
  exact ⟨hword, fun hnil => hvalue (String.toList_eq_nil_iff.1 hnil)⟩

def urlSegments : List (String × String) := [("data-source", "a:b/\"c\\")]

def urlParameters : List (String × Json) := [("enabled", .bool true), ("url", .str "x,y)")]

theorem read_commandText_url :
    read "/data-source=\"a:b/\\\"c\\\\\":add(enabled=true,url=\"x,y)\")" =
      .ok (("operation", .str "add") ::
        ("address", AddressOf.model (α := String) ⟨urlSegments⟩) :: urlParameters) := by
  have hword : Word "data-source" ∧ Word "add" ∧ Word "enabled" ∧ Word "url" := by decide
  have hsegments : ∀ segment ∈ urlSegments, Word segment.1 ∧ segment.2 ≠ "" := by
    simpa [urlSegments] using hword.1
  have hparams : ∀ p ∈ urlParameters, Word p.1 ∧ Literal p.2 := by
    simpa [urlParameters, Literal] using hword.2.2
  have hurl : SpellsText "x,y)" (quoted "x,y)") := .quoted (spells_quoteChars _)
  have hparts : List.Forall₂ SpellsParameter urlParameters
      ["enabled=true".toList, "url=\"x,y)\"".toList] :=
    .cons (.parameter hword.2.2.1 (.bool true)) (.cons (.parameter hword.2.2.2 (.text hurl)) .nil)
  have htext : commandText urlSegments "add" ["enabled=true".toList, "url=\"x,y)\"".toList] =
      "/data-source=\"a:b/\\\"c\\\\\":add(enabled=true,url=\"x,y)\")".toList := by decide
  have hread := (read_commandText hsegments hword.2.1 hparams (by decide)).2 _ hparts
  rwa [htext, String.ofList_toList] at hread

end Command

end Command

end ServerDeploy
