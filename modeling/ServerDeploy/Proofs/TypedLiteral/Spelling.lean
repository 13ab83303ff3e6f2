import ServerDeploy.Proofs.Json.Members
import ServerDeploy.Proofs.TypedLiteral.Values

/-! The spellings of a value as a typed literal. There are many: white space between tokens, escapes
that may be left out, bare keys, two arrows, single properties in parentheses. The reader takes each
of them to the value. -/

namespace ServerDeploy

namespace TypedLiteral

/-- A character of a quoted text, as itself or behind a backslash. -/
inductive SpellsChar : Char → List Char → Prop
  | self {c : Char} (hquote : c ≠ '"') (hslash : c ≠ '\\') : SpellsChar c [c]
  | escaped {c : Char} (hn : c ≠ 'n') (ht : c ≠ 't') (hr : c ≠ 'r') : SpellsChar c ['\\', c]
  | newline : SpellsChar '\n' ['\\', 'n']
  | tab : SpellsChar '\t' ['\\', 't']
  | carriage : SpellsChar '\r' ['\\', 'r']

inductive SpellsChars : List Char → List Char → Prop
  | nil : SpellsChars [] []
  | cons {c : Char} {s xs cs : List Char} (hc : SpellsChar c xs) (hs : SpellsChars s cs) :
      SpellsChars (c :: s) (xs ++ cs)

inductive SpellsText : String → List Char → Prop
  | quoted {s : String} {cs : List Char} (h : SpellsChars s.toList cs) :
      SpellsText s ('"' :: (cs ++ ['"']))

/-- Decimal digits, zeros in front included, with a minus and a long suffix where they stand. -/
inductive SpellsInt : Int → List Char → Prop
  | digits (negative long : Bool) {ds : List Char} (hne : ds ≠ [])
      (hdigits : ∀ c ∈ ds, isDecimalDigit c = true) (hmax : ds.length ≤ maxIntegerDigits) :
      SpellsInt (if negative then -digitsValue ds else digitsValue ds)
        (minusText negative ++ (ds ++ longText long))

inductive SpellsKey : String → List Char → Prop
  | quoted {s : String} {cs : List Char} (h : SpellsText s cs) : SpellsKey s cs
  | bare {c : Char} {cs : List Char} (hc : isWordStart c = true)
      (hcs : ∀ d ∈ cs, isWordPart d = true) : SpellsKey (String.ofList (c :: cs)) (c :: cs)

inductive SpellsArrow : List Char → Prop
  | arrow : SpellsArrow ['=', '>']
  | colon : SpellsArrow [':']

mutual

/-- The values of the language: no doubles, no integer of too many digits, no name twice. -/
def Literal : Json → Prop
  | .null | .bool _ | .str _ => True
  | .int n => n.natAbs < 10 ^ maxIntegerDigits
  | .num _ => False
  | .arr items => LiteralItems items
  | .obj members => (members.map (·.1)).Nodup ∧ LiteralMembers members

def LiteralItems : List Json → Prop
  | [] => True
  | v :: rest => Literal v ∧ LiteralItems rest

def LiteralMembers : List (String × Json) → Prop
  | [] => True
  | (_, v) :: rest => Literal v ∧ LiteralMembers rest

end

mutual

inductive Spells : Json → List Char → Prop
  | null : Spells .null "undefined".toList
  | bool (b : Bool) : Spells (.bool b) (Json.boolText b).toList
  | int {n : Int} {cs : List Char} (h : SpellsInt n cs) : Spells (.int n) cs
  | text {s : String} {cs : List Char} (h : SpellsText s cs) : Spells (.str s) cs
  | emptyList {ws : List Char} (h : AllBlank ws) : Spells (.arr []) ('[' :: (ws ++ [']']))
  | list {items : List Json} {cs : List Char} (h : SpellsItems items cs) :
      Spells (.arr items) ('[' :: (cs ++ [']']))
  | emptyObject {ws : List Char} (h : AllBlank ws) :
      Spells (.obj []) ('\x7b' :: (ws ++ ['\x7d']))
  | object {members : List (String × Json)} {cs : List Char}
      (hnames : (members.map (·.1)).Nodup) (h : SpellsMembers members cs) :
      Spells (.obj members) ('\x7b' :: (cs ++ ['\x7d']))
  | property {k : String} {v : Json} {cs : List Char} (h : SpellsMember k v cs) :
      Spells (.obj [(k, v)]) ('(' :: (cs ++ [')']))

/-- A value with white space around it. -/
inductive SpellsPadded : Json → List Char → Prop
  | padded {v : Json} {before cs after : List Char} (hbefore : AllBlank before) (h : Spells v cs)
      (hafter : AllBlank after) : SpellsPadded v (before ++ (cs ++ after))

inductive SpellsItems : List Json → List Char → Prop
  | last {v : Json} {cs : List Char} (h : SpellsPadded v cs) : SpellsItems [v] cs
  | more {v : Json} {cs rest : List Char} {vs : List Json} (h : SpellsPadded v cs)
      (hrest : SpellsItems vs rest) : SpellsItems (v :: vs) (cs ++ ',' :: rest)

inductive SpellsMember : String → Json → List Char → Prop
  | member {k : String} {v : Json} {before ks middle arrow cs : List Char}
      (hbefore : AllBlank before) (hk : SpellsKey k ks) (hmiddle : AllBlank middle)
      (harrow : SpellsArrow arrow) (hv : SpellsPadded v cs) :
      SpellsMember k v (before ++ (ks ++ (middle ++ (arrow ++ cs))))

inductive SpellsMembers : List (String × Json) → List Char → Prop
  | last {k : String} {v : Json} {cs : List Char} (h : SpellsMember k v cs) :
      SpellsMembers [(k, v)] cs
  | more {k : String} {v : Json} {cs rest : List Char} {ms : List (String × Json)}
      (h : SpellsMember k v cs) (hrest : SpellsMembers ms rest) :
      SpellsMembers ((k, v) :: ms) (cs ++ ',' :: rest)

end

theorem isWordPart_of_isWordStart {c : Char} (h : isWordStart c = true) : isWordPart c = true := by
  simp only [isWordStart, isWordPart, Char.isAlphanum, Bool.or_eq_true] at h ⊢
  rcases h with h | h <;> simp [h]

theorem isWordPart_undefined : ∀ c ∈ "undefined".toList, isWordPart c = true :=
  List.all_eq_true.1 (by decide)

theorem isWordPart_boolText (b : Bool) : ∀ c ∈ (Json.boolText b).toList, isWordPart c = true :=
  List.all_eq_true.1 (by cases b <;> decide)

theorem isBlank_of_isWordPart {c : Char} (h : isWordPart c = true) : isBlank c = false := by
  have hc : 33 ≤ c.toNat ∧ c.toNat ≤ 122 := by
    simp only [isWordPart, Char.isAlphanum, Bool.or_eq_true, beq_iff_eq] at h
    rcases h with (((hletter | hdigit) | rfl) | rfl) | rfl
    · rcases Bool.or_eq_true_iff.1 hletter with hupper | hlower
      · have hrange : 65 ≤ c.toNat ∧ c.toNat ≤ 90 := of_decide_eq_true hupper
        omega
      · obtain ⟨hlow, hhigh⟩ := Bool.and_eq_true_iff.1 hlower
        have hrange : 97 ≤ c.toNat ∧ c.toNat ≤ 122 :=
          ⟨of_decide_eq_true hlow, of_decide_eq_true hhigh⟩
        omega
    · obtain ⟨hlow, hhigh⟩ := Bool.and_eq_true_iff.1 hdigit
      have hrange : 48 ≤ c.toNat ∧ c.toNat ≤ 57 :=
        ⟨of_decide_eq_true hlow, of_decide_eq_true hhigh⟩
      omega
    · decide
    · decide
    · decide
  simp only [isBlank, Bool.or_eq_false_iff, Bool.and_eq_false_iff, decide_eq_false_iff_not,
    beq_eq_false_iff_ne]
  omega

theorem stops_blanks {ws rest : List Char} (h : AllBlank ws) (hrest : Stops rest) :
    Stops (ws ++ rest) := by
  cases ws with
  | nil => exact hrest
  | cons c ws =>
    have hc := h c (by simp)
    apply stops_cons
    · apply Bool.eq_false_iff.2
      intro hword
      rw [isBlank_of_isWordPart hword] at hc
      cases hc
    · apply Bool.eq_false_iff.2
      intro hdigit
      rw [isBlank_of_isDecimalDigit hdigit] at hc
      cases hc

theorem stringBody_spelledChar {c : Char} {xs : List Char} (h : SpellsChar c xs) (cs : List Char) :
    stringBody (xs ++ cs) = inFront [c] (stringBody cs) := by
  cases h with
  | self hquote hslash => exact stringBody_self hquote hslash cs
  | escaped hn ht hr =>
    have hc : unescape c = c := by simp [unescape, hn, ht, hr]
    rw [List.cons_append, List.singleton_append, stringBody_escaped, hc]
  | newline | tab | carriage => exact stringBody_escaped _ cs

theorem stringBody_spelled {s cs : List Char} (h : SpellsChars s cs) (rest : List Char) :
    stringBody (cs ++ '"' :: rest) = .ok (s, rest) := by
  induction h with
  | nil => exact stringBody_quote rest
  | cons hc _ ih =>
    rw [List.append_assoc, stringBody_spelledChar hc, ih]
    rfl

theorem string_spelled {s : String} {cs : List Char} (h : SpellsText s cs) (rest : List Char) :
    string (cs ++ rest) = .ok (s, rest) := by
  cases h with
  | @quoted body h =>
    have hmark : mark '"' ('"' :: (body ++ ['"'] ++ rest)) = .ok ((), body ++ '"' :: rest) := by
      rw [List.append_assoc]
      rfl
    unfold string
    rw [List.cons_append, hmark]
    simp only [bind, Except.bind]
    rw [stringBody_spelled h]
    simp only [String.ofList_toList]
    rfl

theorem value_spelledText {s : String} {cs : List Char} (h : SpellsText s cs) (depth : Nat)
    (rest : List Char) : value (depth + 1) (cs ++ rest) = .ok (.str s, rest) := by
  have hstring := string_spelled h rest
  cases h with
  | quoted h => exact value_string hstring

theorem exists_spelledInt {n : Int} {cs : List Char} (h : SpellsInt n cs) :
    ∃ c tail, cs = c :: tail ∧ (c = '-' ∨ isDecimalDigit c = true) := by
  cases h with
  | @digits negative long ds hne hdigits hmax =>
    cases negative with
    | true => exact ⟨'-', _, rfl, .inl rfl⟩
    | false =>
      obtain ⟨c, tail, rfl⟩ := List.exists_cons_of_ne_nil hne
      exact ⟨c, _, rfl, .inr (hdigits c (by simp))⟩

theorem value_spelledInt {n : Int} {cs : List Char} (h : SpellsInt n cs) (depth : Nat)
    {rest : List Char} (hrest : Stops rest) :
    value (depth + 1) (cs ++ rest) = .ok (.int n, rest) := by
  have hnumber : number (cs ++ rest) = .ok (.int n, rest) := by
    cases h with
    | digits negative long hne hdigits hmax =>
      rw [List.append_assoc, List.append_assoc]
      exact number_integer negative long hne hdigits hmax hrest
  obtain ⟨c, tail, rfl, hc⟩ := exists_spelledInt h
  rw [List.cons_append, value_number depth hc]
  exact hnumber

theorem key_spelled {k : String} {cs : List Char} (h : SpellsKey k cs) {rest : List Char}
    (hrest : Stops rest) : key (cs ++ rest) = .ok (k, rest) := by
  cases h with
  | quoted h =>
    have hstring := string_spelled h rest
    cases h with
    | quoted h => exact key_string hstring
  | @bare c cs hc hcs =>
    have hne : ∀ d : Char, isWordStart d = false → c ≠ d := by
      rintro d hd rfl
      rw [hd] at hc
      cases hc
    have hblank : isBlank c = false := isBlank_of_isWordPart (isWordPart_of_isWordStart hc)
    unfold key
    rw [List.cons_append, skipBlanks_cons_of_not_blank hblank]
    split
    · next heq => exact absurd (List.cons.inj heq).1 (hne '"' (by decide))
    · rw [word?_append hc hcs hrest]

theorem arrow_spelled {a : List Char} (h : SpellsArrow a) (rest : List Char) :
    arrow (a ++ rest) = .ok ((), rest) := by
  cases h with
  | arrow | colon => rfl

theorem stops_arrow {a : List Char} (h : SpellsArrow a) (rest : List Char) : Stops (a ++ rest) := by
  cases h with
  | arrow | colon => exact stops_cons (by decide) (by decide) _

theorem exists_spelled {v : Json} {cs : List Char} (h : Spells v cs) :
    ∃ c tail, cs = c :: tail ∧ isBlank c = false ∧ c ≠ ']' := by
  cases h with
  | null => exact ⟨_, _, rfl, by decide, by decide⟩
  | bool b => cases b <;> exact ⟨_, _, rfl, by decide, by decide⟩
  | int h =>
    obtain ⟨c, tail, rfl, hc⟩ := exists_spelledInt h
    refine ⟨c, tail, rfl, ?_, ?_⟩
    · rcases hc with rfl | hc
      · decide
      · exact isBlank_of_isDecimalDigit hc
    · rintro rfl
      revert hc
      decide
  | text h =>
    cases h with
    | quoted h => exact ⟨_, _, rfl, by decide, by decide⟩
  | emptyList | list | emptyObject | object | property => exact ⟨_, _, rfl, by decide, by decide⟩

theorem exists_spelledKey {k : String} {cs : List Char} (h : SpellsKey k cs) :
    ∃ c tail, cs = c :: tail ∧ isBlank c = false ∧ c ≠ '\x7d' := by
  cases h with
  | quoted h =>
    cases h with
    | quoted h => exact ⟨_, _, rfl, by decide, by decide⟩
  | bare hc hcs =>
    refine ⟨_, _, rfl, isBlank_of_isWordPart (isWordPart_of_isWordStart hc), ?_⟩
    rintro rfl
    revert hc
    decide

theorem SpellsPadded.begins {v : Json} {cs : List Char} (h : SpellsPadded v cs) (rest : List Char) :
    Begins (cs ++ rest) ']' := by
  cases h with
  | padded hbefore h hafter =>
    obtain ⟨c, tail, rfl, hblank, hne⟩ := exists_spelled h
    rw [List.append_assoc]
    exact (begins_cons hblank hne _).blanks hbefore

theorem SpellsItems.begins {items : List Json} {cs : List Char} (h : SpellsItems items cs)
    (rest : List Char) : Begins (cs ++ rest) ']' := by
  cases h with
  | last h => exact h.begins rest
  | more h hrest =>
    rw [List.append_assoc]
    exact h.begins _

theorem SpellsMember.begins {k : String} {v : Json} {cs : List Char} (h : SpellsMember k v cs)
    (rest : List Char) : Begins (cs ++ rest) '\x7d' := by
  cases h with
  | member hbefore hk hmiddle harrow hv =>
    obtain ⟨c, tail, rfl, hblank, hne⟩ := exists_spelledKey hk
    rw [List.append_assoc]
    exact (begins_cons hblank hne _).blanks hbefore

theorem SpellsMembers.begins {members : List (String × Json)} {cs : List Char}
    (h : SpellsMembers members cs) (rest : List Char) : Begins (cs ++ rest) '\x7d' := by
  cases h with
  | last h => exact h.begins rest
  | more h hrest =>
    rw [List.append_assoc]
    exact h.begins _

/-- Wherever the spelling may end, the reader takes it to the value, if there is enough depth for the
length of the text. -/
def Reads (v : Json) (cs : List Char) : Prop :=
  ∀ (depth : Nat) (rest : List Char), Stops rest → cs.length ≤ depth →
    value depth (cs ++ rest) = .ok (v, rest)

def ReadsPadded (v : Json) (cs : List Char) : Prop :=
  ∀ (depth : Nat) (rest : List Char), Stops rest → cs.length ≤ depth →
    ∃ after, AllBlank after ∧ value depth (cs ++ rest) = .ok (v, after ++ rest)

def ReadsItems (items : List Json) (cs : List Char) : Prop :=
  ∀ (depth : Nat) (rest : List Char), cs.length < depth →
    listItems depth (cs ++ ']' :: rest) = .ok (items, rest)

def ReadsMember (k : String) (v : Json) (cs : List Char) : Prop :=
  ∀ (depth : Nat) (rest : List Char), Stops rest → cs.length ≤ depth →
    ∃ middle body after, key (cs ++ rest) = .ok (k, middle) ∧ arrow middle = .ok ((), body) ∧
      AllBlank after ∧ value depth body = .ok (v, after ++ rest)

def ReadsMembers (members : List (String × Json)) (cs : List Char) : Prop :=
  ∀ (depth : Nat) (before : Members) (rest : List Char), cs.length < depth →
    objectMembers depth before (cs ++ '\x7d' :: rest) = .ok (before.setAll members, rest)

theorem Reads.of_succ {v : Json} {cs : List Char} (hne : cs ≠ [])
    (h : ∀ (depth : Nat) (rest : List Char), Stops rest → cs.length ≤ depth + 1 →
      value (depth + 1) (cs ++ rest) = .ok (v, rest)) : Reads v cs := by
  intro depth rest hrest hdepth
  cases depth with
  | zero => exact absurd (List.length_eq_zero_iff.1 (by omega)) hne
  | succ depth => exact h depth rest hrest hdepth

theorem Reads.padded {v : Json} {before cs after : List Char} (h : Reads v cs)
    (hbefore : AllBlank before) (hafter : AllBlank after) :
    ReadsPadded v (before ++ (cs ++ after)) := by
  intro depth rest hrest hdepth
  simp only [List.length_append] at hdepth
  refine ⟨after, hafter, ?_⟩
  rw [List.append_assoc, List.append_assoc, value_blanks hbefore]
  exact h depth _ (stops_blanks hafter hrest) (by omega)

theorem ReadsPadded.last {v : Json} {cs : List Char} (h : ReadsPadded v cs) :
    ReadsItems [v] cs := by
  intro depth rest hdepth
  obtain ⟨depth, rfl⟩ : ∃ d, depth = d + 1 := ⟨depth - 1, by omega⟩
  obtain ⟨after, hafter, hv⟩ :=
    h depth (']' :: rest) (stops_cons (by decide) (by decide) rest) (by omega)
  exact listItems_last hafter hv

theorem ReadsPadded.more {v : Json} {vs : List Json} {cs more : List Char} (h : ReadsPadded v cs)
    (hmore : ReadsItems vs more) : ReadsItems (v :: vs) (cs ++ ',' :: more) := by
  intro depth rest hdepth
  simp only [List.length_append, List.length_cons] at hdepth
  obtain ⟨depth, rfl⟩ : ∃ d, depth = d + 1 := ⟨depth - 1, by omega⟩
  obtain ⟨after, hafter, hv⟩ := h depth (',' :: (more ++ ']' :: rest))
    (stops_cons (by decide) (by decide) _) (by omega)
  rw [List.append_assoc, List.cons_append]
  exact listItems_more hafter hv (hmore depth rest (by omega))

theorem ReadsPadded.member {k : String} {v : Json} {before ks middle a cs : List Char}
    (h : ReadsPadded v cs) (hbefore : AllBlank before) (hk : SpellsKey k ks)
    (hmiddle : AllBlank middle) (ha : SpellsArrow a) :
    ReadsMember k v (before ++ (ks ++ (middle ++ (a ++ cs)))) := by
  intro depth rest hrest hdepth
  simp only [List.length_append] at hdepth
  obtain ⟨after, hafter, hv⟩ := h depth rest hrest (by omega)
  refine ⟨middle ++ (a ++ (cs ++ rest)), cs ++ rest, after, ?_, ?_, hafter, hv⟩
  · simp only [List.append_assoc]
    rw [key_blanks hbefore]
    exact key_spelled hk (stops_blanks hmiddle (stops_arrow ha _))
  · rw [arrow_blanks hmiddle, arrow_spelled ha]

theorem ReadsMember.last {k : String} {v : Json} {cs : List Char} (h : ReadsMember k v cs) :
    ReadsMembers [(k, v)] cs := by
  intro depth before rest hdepth
  obtain ⟨depth, rfl⟩ : ∃ d, depth = d + 1 := ⟨depth - 1, by omega⟩
  obtain ⟨middle, body, after, hkey, harrow, hafter, hv⟩ :=
    h depth ('\x7d' :: rest) (stops_cons (by decide) (by decide) rest) (by omega)
  exact objectMembers_last hkey harrow hafter hv

theorem ReadsMember.more {k : String} {v : Json} {ms : List (String × Json)} {cs more : List Char}
    (h : ReadsMember k v cs) (hmore : ReadsMembers ms more) :
    ReadsMembers ((k, v) :: ms) (cs ++ ',' :: more) := by
  intro depth before rest hdepth
  simp only [List.length_append, List.length_cons] at hdepth
  obtain ⟨depth, rfl⟩ : ∃ d, depth = d + 1 := ⟨depth - 1, by omega⟩
  obtain ⟨middle, body, after, hkey, harrow, hafter, hv⟩ :=
    h depth (',' :: (more ++ '\x7d' :: rest)) (stops_cons (by decide) (by decide) _) (by omega)
  rw [List.append_assoc, List.cons_append]
  exact objectMembers_more hkey harrow hafter hv (hmore depth _ rest (by omega))

theorem ReadsItems.list {items : List Json} {cs : List Char} (h : ReadsItems items cs)
    (hcs : ∀ rest, Begins (cs ++ rest) ']') : Reads (.arr items) ('[' :: (cs ++ [']'])) := by
  refine .of_succ (by simp) fun depth rest _ hdepth => ?_
  simp only [List.length_append, List.length_cons] at hdepth
  rw [List.cons_append, List.append_assoc]
  exact value_arr (hcs _) (h depth rest (by omega))

theorem ReadsMembers.object {members : List (String × Json)} {cs : List Char}
    (hnames : (members.map (·.1)).Nodup) (h : ReadsMembers members cs)
    (hcs : ∀ rest, Begins (cs ++ rest) '\x7d') :
    Reads (.obj members) ('\x7b' :: (cs ++ ['\x7d'])) := by
  refine .of_succ (by simp) fun depth rest _ hdepth => ?_
  simp only [List.length_append, List.length_cons] at hdepth
  have hset : Members.setAll [] members = members :=
    Members.setAll_of_nodup (by simpa using hnames)
  have hread := h depth [] rest (by omega)
  rw [hset] at hread
  rw [List.cons_append, List.append_assoc]
  exact value_obj (hcs _) hread

theorem ReadsMember.property {k : String} {v : Json} {cs : List Char} (h : ReadsMember k v cs) :
    Reads (.obj [(k, v)]) ('(' :: (cs ++ [')'])) := by
  refine .of_succ (by simp) fun depth rest _ hdepth => ?_
  simp only [List.length_append, List.length_cons] at hdepth
  obtain ⟨middle, body, after, hkey, harrow, hafter, hv⟩ :=
    h depth (')' :: rest) (stops_cons (by decide) (by decide) rest) (by omega)
  rw [List.cons_append, List.append_assoc]
  exact value_property hkey harrow hafter hv

theorem reads_emptyList {ws : List Char} (h : AllBlank ws) :
    Reads (.arr []) ('[' :: (ws ++ [']'])) := by
  refine .of_succ (by simp) fun depth rest _ _ => ?_
  rw [List.cons_append, List.append_assoc]
  exact value_empty_arr depth h rest

theorem reads_emptyObject {ws : List Char} (h : AllBlank ws) :
    Reads (.obj []) ('\x7b' :: (ws ++ ['\x7d'])) := by
  refine .of_succ (by simp) fun depth rest _ _ => ?_
  rw [List.cons_append, List.append_assoc]
  exact value_empty_obj depth h rest

mutual

theorem Spells.reads {v : Json} {cs : List Char} : Spells v cs → Reads v cs
  | .null => .of_succ (by decide) fun depth _ hrest _ => value_undefined depth hrest
  | .bool b => .of_succ (by cases b <;> decide) fun depth _ hrest _ => value_bool depth b hrest
  | .int h => .of_succ (by obtain ⟨c, tail, rfl, -⟩ := exists_spelledInt h; simp)
      fun depth _ hrest _ => value_spelledInt h depth hrest
  | .text h => .of_succ (by cases h; simp) fun depth rest _ _ => value_spelledText h depth rest
  | .emptyList h => reads_emptyList h
  | .list h => h.reads.list h.begins
  | .emptyObject h => reads_emptyObject h
  | .object hnames h => h.reads.object hnames h.begins
  | .property h => h.reads.property

theorem SpellsPadded.reads {v : Json} {cs : List Char} : SpellsPadded v cs → ReadsPadded v cs
  | .padded hbefore h hafter => h.reads.padded hbefore hafter

theorem SpellsItems.reads {items : List Json} {cs : List Char} :
    SpellsItems items cs → ReadsItems items cs
  | .last h => h.reads.last
  | .more h hrest => h.reads.more hrest.reads

theorem SpellsMember.reads {k : String} {v : Json} {cs : List Char} :
    SpellsMember k v cs → ReadsMember k v cs
  | .member hbefore hk hmiddle harrow hv => hv.reads.member hbefore hk hmiddle harrow

theorem SpellsMembers.reads {members : List (String × Json)} {cs : List Char} :
    SpellsMembers members cs → ReadsMembers members cs
  | .last h => h.reads.last
  | .more h hrest => h.reads.more hrest.reads

end

theorem exists_spellsChars (s : List Char) : ∃ cs, SpellsChars s cs := by
  induction s with
  | nil => exact ⟨[], .nil⟩
  | cons c s ih =>
    obtain ⟨cs, hcs⟩ := ih
    have hc : ∃ xs, SpellsChar c xs := by
      by_cases hquote : c = '"'
      · exact ⟨_, .escaped (by simp [hquote]) (by simp [hquote]) (by simp [hquote])⟩
      by_cases hslash : c = '\\'
      · exact ⟨_, .escaped (by simp [hslash]) (by simp [hslash]) (by simp [hslash])⟩
      exact ⟨[c], .self hquote hslash⟩
    obtain ⟨xs, hxs⟩ := hc
    exact ⟨xs ++ cs, .cons hxs hcs⟩

theorem exists_spellsText (s : String) : ∃ cs, SpellsText s cs := by
  obtain ⟨cs, hcs⟩ := exists_spellsChars s.toList
  exact ⟨_, .quoted hcs⟩

theorem exists_spellsInt {n : Int} (hn : n.natAbs < 10 ^ maxIntegerDigits) :
    ∃ cs, SpellsInt n cs := by
  have hdigits : ∀ c ∈ Nat.toDigits 10 n.natAbs, isDecimalDigit c = true := fun c hc =>
    isDecimalDigit_of_isDigit (Nat.isDigit_of_mem_toDigits (by decide) (by decide) hc)
  have hspelled := SpellsInt.digits (decide (n < 0)) false Nat.toDigits_ne_nil hdigits
    (toDigits_length_le hn)
  have habs : (if decide (n < 0) = true then -(n.natAbs : Int) else n.natAbs) = n := by
    split
    · next hneg =>
      have hlt : n < 0 := by simpa using hneg
      omega
    · next hneg =>
      have hle : ¬n < 0 := by simpa using hneg
      omega
  rw [digitsValue_toDigits, habs] at hspelled
  exact ⟨_, hspelled⟩

theorem Spells.tight {v : Json} {cs : List Char} (h : Spells v cs) : SpellsPadded v cs := by
  have hpadded := SpellsPadded.padded allBlank_nil h allBlank_nil
  rwa [List.nil_append, List.append_nil] at hpadded

theorem Spells.exists_member {v : Json} {cs : List Char} (h : Spells v cs) (k : String) :
    ∃ text, SpellsMember k v text := by
  obtain ⟨ks, hks⟩ := exists_spellsText k
  exact ⟨_, .member allBlank_nil (.quoted hks) allBlank_nil .arrow h.tight⟩

mutual

theorem exists_spells : ∀ v : Json, Literal v → ∃ cs, Spells v cs
  | .null, _ => ⟨_, .null⟩
  | .bool b, _ => ⟨_, .bool b⟩
  | .num _, h => h.elim
  | .int _, h => (exists_spellsInt h).imp fun _ => .int
  | .str s, _ => (exists_spellsText s).imp fun _ => .text
  | .arr [], _ => ⟨_, .emptyList allBlank_nil⟩
  | .arr (v :: vs), h => by
    obtain ⟨cs, hcs⟩ := exists_spellsItems (v :: vs) h (by simp)
    exact ⟨_, .list hcs⟩
  | .obj [], _ => ⟨_, .emptyObject allBlank_nil⟩
  | .obj (m :: ms), h => by
    obtain ⟨cs, hcs⟩ := exists_spellsMembers (m :: ms) h.2 (by simp)
    exact ⟨_, .object h.1 hcs⟩

theorem exists_spellsItems : ∀ items : List Json, LiteralItems items → items ≠ [] →
    ∃ cs, SpellsItems items cs
  | [], _, hne => absurd rfl hne
  | [v], h, _ => by
    obtain ⟨cs, hcs⟩ := exists_spells v h.1
    exact ⟨_, .last hcs.tight⟩
  | v :: u :: vs, h, _ => by
    obtain ⟨cs, hcs⟩ := exists_spells v h.1
    obtain ⟨more, hmore⟩ := exists_spellsItems (u :: vs) h.2 (by simp)
    exact ⟨_, .more hcs.tight hmore⟩

theorem exists_spellsMembers : ∀ members : List (String × Json), LiteralMembers members →
    members ≠ [] → ∃ cs, SpellsMembers members cs
  | [], _, hne => absurd rfl hne
  | [(k, v)], h, _ => by
    obtain ⟨cs, hcs⟩ := exists_spells v h.1
    obtain ⟨text, hmember⟩ := hcs.exists_member k
    exact ⟨_, .last hmember⟩
  | (k, v) :: m :: ms, h, _ => by
    obtain ⟨cs, hcs⟩ := exists_spells v h.1
    obtain ⟨text, hmember⟩ := hcs.exists_member k
    obtain ⟨more, hmore⟩ := exists_spellsMembers (m :: ms) h.2 (by simp)
    exact ⟨_, .more hmember hmore⟩

end

theorem read_spelled {v : Json} {cs : List Char} (h : SpellsPadded v cs) : read cs = .ok v := by
  obtain ⟨after, hafter, hv⟩ := h.reads (2 * cs.length + 2) [] stops_nil (by omega)
  have hskip : skipBlanks after = [] := by
    have hnil := skipBlanks_append hafter []
    rwa [List.append_nil] at hnil
  rw [List.append_nil, List.append_nil] at hv
  unfold read
  rw [hv]
  simp only [hskip]

/-- Every value of the language can be written, and however it is written, the reader gives exactly
that value back. -/
theorem parse_spelled {v : Json} (hv : Literal v) :
    (∃ s : String, SpellsPadded v s.toList) ∧
      ∀ s : String, SpellsPadded v s.toList → parse s = .ok v := by
  obtain ⟨cs, hcs⟩ := exists_spells v hv
  refine ⟨⟨String.ofList cs, ?_⟩, fun s hs => read_spelled hs⟩
  rw [String.toList_ofList]
  exact hcs.tight

def poolSettings : Json :=
  .obj [("\"a", .arr [.int (-12), .null]), ("max-size", .obj [("on", .bool true)])]

def poolText : String := " \x7b\"\\\"a\" => [-12L , undefined],max-size:(on=>true)\x7d\n"

theorem spells_poolText : SpellsPadded poolSettings poolText.toList := by
  have htwelve : Spells (.int (-12)) "-12L".toList :=
    .int (@SpellsInt.digits true true ['1', '2'] (by decide) (List.all_eq_true.1 (by decide)) (by decide))
  have hlist : Spells (.arr [.int (-12), .null]) "[-12L , undefined]".toList :=
    .list (.more (.padded allBlank_nil htwelve allBlank_space)
      (.last (.padded allBlank_space .null allBlank_nil)))
  have hchars : SpellsChars ['"', 'a'] ['\\', '"', 'a'] :=
    .cons (.escaped (by decide) (by decide) (by decide)) (.cons (.self (by decide) (by decide)) .nil)
  have hquoted : SpellsText "\"a" "\"\\\"a\"".toList := .quoted (s := "\"a") hchars
  have hon : SpellsKey "on" "on".toList :=
    @SpellsKey.bare 'o' ['n'] (by decide) (List.all_eq_true.1 (by decide))
  have hproperty : Spells (.obj [("on", .bool true)]) "(on=>true)".toList :=
    .property (.member allBlank_nil hon allBlank_nil .arrow (Spells.bool true).tight)
  have hname : SpellsKey "max-size" "max-size".toList :=
    @SpellsKey.bare 'm' "ax-size".toList (by decide) (List.all_eq_true.1 (by decide))
  have hblank : AllBlank ['\n'] := List.all_eq_true.1 (by decide)
  exact .padded allBlank_space
    (.object (by decide)
      (.more (.member allBlank_nil (.quoted hquoted) allBlank_space .arrow
          (.padded allBlank_space hlist allBlank_nil))
        (.last (.member allBlank_nil hname allBlank_nil .colon hproperty.tight)))) hblank

theorem parse_spelled_pool : Literal poolSettings ∧ parse poolText = .ok poolSettings := by
  have htwelve : 12 < 10 ^ maxIntegerDigits :=
    Nat.lt_of_lt_of_le (show 12 < 10 ^ 2 by decide) (Nat.pow_le_pow_right (by decide) (by decide))
  have hv : Literal poolSettings := by
    simpa [poolSettings, Literal, LiteralMembers, LiteralItems] using htwelve
  exact ⟨hv, (parse_spelled hv).2 _ spells_poolText⟩

end TypedLiteral

end ServerDeploy
