import ServerDeploy.Proofs.TypedLiteral.Stepping

/-! Where each part of the reader ends. Steps taken one after the other come to what the reader gives, so
it ends at every place of every text, further on or with a problem that is placed in the text. -/

namespace ServerDeploy

namespace TypedLiteral

/-- What stands between two marks, if anything does. -/
def enclosed (opens closes : Char) (empty : Json)
    (inside : List Char → Except Failure (Json × List Char)) (cs : List Char) :
    Except Failure (Json × List Char) := do
  let (_, rest) ← mark opens cs
  match skipBlanks rest with
  | [] => inside []
  | c :: after => if c = closes then pure (empty, after) else inside (c :: after)

/-- A list on its own, with its opening bracket. -/
def list : List Char → Except Failure (Json × List Char) :=
  enclosed '[' ']' (.arr []) fun items => do
    let (values, rest) ← listItems (depthFor items) items
    pure (.arr values, rest)

/-- An object on its own, with its opening brace. -/
def object : List Char → Except Failure (Json × List Char) :=
  enclosed '\x7b' '\x7d' (.obj []) fun members => do
    let (members, rest) ← objectMembers (depthFor members) [] members
    pure (.obj members, rest)

/-- A single property in parentheses. -/
def property (cs : List Char) : Except Failure (Json × List Char) := do
  let (_, rest) ← mark '(' cs
  let (name, rest) ← key rest
  let (_, rest) ← arrow rest
  let (v, rest) ← value (depthFor rest) rest
  let (_, rest) ← mark ')' rest
  pure (.obj [(name, v)], rest)

/-- The text that a reading leaves, without its value. -/
def left {α : Type} (r : Except Failure (α × List Char)) : Except Failure (Unit × List Char) := do
  let (_, rest) ← r
  pure ((), rest)

/-- What is left behind the end of a turn, given what another turn leaves. -/
def leftTurning (turn : List Char → Except Failure (Unit × List Char)) (closes : Char)
    (problem : Problem) (cs : List Char) : Except Failure (Unit × List Char) :=
  match skipBlanks cs with
  | [] => .error (.malformed problem [])
  | c :: rest =>
    if c = ',' then turn rest
    else if c = closes then .ok ((), rest)
    else .error (.malformed problem (c :: rest))

/-- What the reader leaves of a text when it reads a part there. -/
def Part.read (part : Part) (cs : List Char) : Except Failure (Unit × List Char) :=
  match part with
  | .value => left (TypedLiteral.value (depthFor cs) cs)
  | .string => left (TypedLiteral.string cs)
  | .stringBody => left (TypedLiteral.stringBody cs)
  | .number => left (TypedLiteral.number cs)
  | .list => left (TypedLiteral.list cs)
  | .items => left (listItems (depthFor cs) cs)
  | .afterItem => leftTurning (fun after => left (listItems (depthFor after) after)) ']' .listMark cs
  | .object => left (TypedLiteral.object cs)
  | .members => left (objectMembers (depthFor cs) [] cs)
  | .afterMember =>
    leftTurning (fun after => left (objectMembers (depthFor after) [] after)) '\x7d' .objectMark cs
  | .property => left (TypedLiteral.property cs)
  | .bytes => left (TypedLiteral.bytes cs)
  | .byteItems => left (TypedLiteral.byteItems (cs.length + 1) cs)
  | .key => left (TypedLiteral.key cs)
  | .arrow => TypedLiteral.arrow cs
  | .mark c => TypedLiteral.mark c cs
  | .keyword => left (TypedLiteral.keyword cs)
  | .bigNumber => left (TypedLiteral.bigNumber cs)

/-- What the reader leaves when it reads parts one after the other. -/
def readParts : List Part → List Char → Except Failure (Unit × List Char)
  | [], cs => .ok ((), cs)
  | part :: parts, cs => do
    let (_, rest) ← part.read cs
    readParts parts rest

theorem readParts_append (parts more : List Part) (cs : List Char) :
    readParts (parts ++ more) cs = readParts parts cs >>= fun p => readParts more p.2 := by
  induction parts generalizing cs with
  | nil => rfl
  | cons part parts ih =>
    simp only [List.cons_append, readParts, ih, bind_assoc]

theorem readParts_single (part : Part) (cs : List Char) : readParts [part] cs = part.read cs :=
  bind_pure (part.read cs)

/-- What is left of a text when a step and all that it comes to have been read. -/
def readOn (r : Except Failure (List Part × List Char)) : Except Failure (Unit × List Char) := do
  let (parts, rest) ← r
  readParts parts rest

theorem readOn_single (part : Part) (cs : List Char) : readOn (.ok ([part], cs)) = part.read cs :=
  readParts_single part cs

theorem readOn_followedBy {α : Type} (r : Except Failure (α × List Char)) (parts : List Part) :
    readOn (followedBy r parts) = r >>= fun p => readParts parts p.2 := by
  simp only [readOn, followedBy, bind_assoc, pure_bind]

theorem readOn_alone {α : Type} (r : Except Failure (α × List Char)) :
    readOn (followedBy r []) = left r := readOn_followedBy r []

theorem readOn_behind {α : Type} (r : Except Failure (α × List Char)) (part : Part) :
    readOn (followedBy r [part]) = r >>= fun p => part.read p.2 := by
  simp only [readOn_followedBy, readParts_single]

theorem left_unit (r : Except Failure (Unit × List Char)) : left r = r := bind_pure r

theorem left_bind {α β : Type} (r : Except Failure (α × List Char))
    (next : α × List Char → Except Failure (β × List Char)) :
    left (r >>= next) = r >>= fun p => left (next p) := bind_assoc r next _

theorem left_bind_pure {α β : Type} (r : Except Failure (α × List Char)) (f : α → β) :
    left (r >>= fun p => pure (f p.1, p.2)) = left r := by
  cases r <;> rfl

theorem left_ite {α : Type} {P : Prop} [Decidable P] {r s : Except Failure (α × List Char)}
    {r' s' : Except Failure (List Part × List Char)} (hr : left r = readOn r')
    (hs : left s = readOn s') : left (if P then r else s) = readOn (if P then r' else s') := by
  split
  · exact hr
  · exact hs

theorem left_inFront (front : List Char) (r : Except Failure (List Char × List Char)) :
    left (inFront front r) = left r := by
  cases r <;> rfl

/-- The members read before do not matter for what is left. -/
theorem left_objectMembers (depth : Nat) (before : Members) (cs : List Char) :
    left (objectMembers depth before cs) = left (objectMembers depth [] cs) := by
  induction depth generalizing before cs with
  | zero => rfl
  | succ depth ih =>
    rw [objectMembers_succ, objectMembers_succ]
    simp only [left_bind]
    refine bind_congr fun named => bind_congr fun pointed => bind_congr fun valued => ?_
    split
    · next after hnext => rw [ih, ih (Members.set _ _ _)]
    · rfl
    · rfl

theorem left_string (cs : List Char) :
    left (string cs) = readOn (followedBy (mark '"' cs) [.stringBody]) := by
  rw [readOn_behind, string, left_bind]
  exact bind_congr fun p => left_bind_pure (stringBody p.2) String.ofList

theorem left_stringBody (cs : List Char) : left (stringBody cs) = readOn (characterStep cs) := by
  fun_cases characterStep cs with
  | case1 => rfl
  | case2 cs =>
    rw [stringBody_quote]
    rfl
  | case3 => rfl
  | case4 e rest =>
    rw [readOn_single, stringBody_escaped, left_inFront]
    rfl
  | case5 c cs hquote hslash =>
    rw [readOn_single, stringBody_self hquote hslash, left_inFront]
    rfl

theorem left_key (cs : List Char) : left (key cs) = readOn (keyStep cs) := by
  rw [key.eq_def]
  fun_cases keyStep cs with
  | case1 rest hnext =>
    simp only [hnext]
    exact (readOn_single .string _).symm
  | case2 hopen hword =>
    split
    · next hnext => exact absurd hnext (hopen _)
    · rw [hword]
      rfl
  | case3 w rest hopen hword =>
    split
    · next hnext => exact absurd hnext (hopen _)
    · rw [hword]
      rfl

theorem left_bigNumber (cs : List Char) : left (bigNumber cs) = readOn (bigNumberStep cs) := by
  rw [bigNumber, bigNumberStep]
  cases word? (skipBlanks cs) with
  | none => rfl
  | some p => exact left_ite (readOn_single .number p.2).symm rfl

theorem left_keyword (cs : List Char) : left (keyword cs) = readOn (keywordStep cs) := by
  rw [keyword, keywordStep]
  cases word? (skipBlanks cs) with
  | none => rfl
  | some p =>
    obtain ⟨w, rest⟩ := p
    refine left_ite rfl (left_ite rfl (left_ite rfl (left_ite ?_ (left_ite ?_ (left_ite ?_ rfl)))))
    · rw [readOn_single]
      exact left_bind_pure (string rest) fun s => Json.obj [("EXPRESSION_VALUE", .str s)]
    · exact (readOn_single .bytes rest).symm
    · exact (readOn_single .bigNumber rest).symm

theorem left_bytes (cs : List Char) :
    left (bytes cs) = readOn (followedBy (mark '\x7b' cs) [.byteItems]) := by
  rw [readOn_behind, bytes, left_bind]
  exact bind_congr fun p => left_bind_pure (byteItems (p.2.length + 1) p.2) fun bs =>
    Json.obj [("BYTES_VALUE", .str (String.ofList (Base64.encode bs)))]

theorem left_byteItems (cs : List Char) :
    left (byteItems (cs.length + 1) cs) = readOn (byteStep cs) := by
  rw [byteItems]
  fun_cases byteStep cs with
  | case1 rest hnext =>
    simp only [hnext]
    rfl
  | case2 hopen hbyte =>
    split
    · next hnext => exact absurd hnext (hopen _)
    · rw [hbyte]
      rfl
  | case3 b rest hopen hbyte =>
    split
    · next hnext => exact absurd hnext (hopen _)
    · have hlength := (hexByte?_proceeds hbyte).2
      have hshort := length_skipBlanks_le cs
      have hshorter := (behindComma_suffix rest).length_le
      have hbound : (behindComma rest).length + 1 ≤ cs.length := by omega
      rw [hbyte, readOn_single]
      exact (left_bind_pure _ (b :: ·)).trans (congrArg left (byteItems_of_bound hbound))

/-- A key, its arrow and its value, which a member of an object and a property begin with. -/
theorem readParts_keyed (parts : List Part) (cs : List Char) :
    readParts (.key :: .arrow :: .value :: parts) cs = key cs >>= fun k => arrow k.2 >>= fun a =>
      value (depthFor a.2) a.2 >>= fun p => readParts parts p.2 := by
  have hparts : readParts (.key :: .arrow :: .value :: parts) cs =
      left (key cs) >>= fun k => arrow k.2 >>= fun a =>
        left (value (depthFor a.2) a.2) >>= fun p => readParts parts p.2 := rfl
  simp only [hparts, left, bind_assoc, pure_bind]

theorem left_property (cs : List Char) :
    left (property cs) = readOn (followedBy (mark '(' cs) [.key, .arrow, .value, .mark ')']) := by
  simp only [readOn_followedBy, readParts_keyed, readParts_single, property, left_bind]
  refine bind_congr fun p => bind_congr fun k => bind_congr fun a => bind_congr fun v => ?_
  exact bind_pure (mark ')' v.2)

theorem readOn_turning (turn : Part) {closes : Char} {problem : Problem} (cs : List Char) :
    readOn (turning turn closes problem cs) = leftTurning turn.read closes problem cs := by
  unfold turning leftTurning
  cases skipBlanks cs with
  | nil => rfl
  | cons c rest =>
    dsimp only
    split
    · rw [readOn_single]
    split
    · rfl
    · rfl

section Enclosed

variable {opens closes : Char} {empty : Json} {inside : List Char → Except Failure (Json × List Char)}

theorem left_enclosed {part : Part} (hinside : ∀ cs, left (inside cs) = part.read cs) (cs : List Char) :
    left (enclosed opens closes empty inside cs) = readOn (opening opens closes part cs) := by
  unfold enclosed opening
  simp only [left_bind, readOn, bind_assoc]
  refine bind_congr fun p => ?_
  cases skipBlanks p.2 with
  | nil => exact (hinside []).trans (readParts_single part []).symm
  | cons c after =>
    dsimp only
    split
    · rfl
    · exact (hinside _).trans (readParts_single part _).symm

theorem mark_next {c : Char} (h : isBlank c = false) (rest : List Char) :
    mark c (c :: rest) = .ok ((), rest) := by
  unfold mark
  rw [skipBlanks_cons_of_not_blank h]
  exact if_pos rfl

theorem enclosed_closed {rest after : List Char} (hopens : isBlank opens = false)
    (hnext : skipBlanks rest = closes :: after) :
    enclosed opens closes empty inside (opens :: rest) = .ok (empty, after) := by
  unfold enclosed
  rw [mark_next hopens]
  simp only [bind, Except.bind, hnext, if_true]
  rfl

theorem enclosed_filled {rest : List Char} (hopens : isBlank opens = false)
    (hnext : ∀ after, skipBlanks rest ≠ closes :: after) :
    enclosed opens closes empty inside (opens :: rest) = inside (skipBlanks rest) := by
  unfold enclosed
  rw [mark_next hopens]
  simp only [bind, Except.bind]
  cases hrest : skipBlanks rest with
  | nil => rfl
  | cons c after =>
    have hcloses : c ≠ closes := by
      rintro rfl
      exact hnext after hrest
    exact if_neg hcloses

end Enclosed

theorem left_list (cs : List Char) : left (list cs) = readOn (opening '[' ']' .items cs) :=
  left_enclosed (fun items => left_bind_pure (listItems (depthFor items) items) Json.arr) cs

theorem left_object (cs : List Char) :
    left (object cs) = readOn (opening '\x7b' '\x7d' .members cs) :=
  left_enclosed (fun members => left_bind_pure (objectMembers (depthFor members) [] members) Json.obj) cs

theorem leftTurning_congr {turn turn' : List Char → Except Failure (Unit × List Char)} {closes : Char}
    {problem : Problem} {cs : List Char}
    (h : ∀ after, after.length + 1 ≤ cs.length → turn after = turn' after) :
    leftTurning turn closes problem cs = leftTurning turn' closes problem cs := by
  unfold leftTurning
  cases hnext : skipBlanks cs with
  | nil => rfl
  | cons c after => simp only [h after (length_of_next hnext)]

theorem left_listItems_succ (depth : Nat) (cs : List Char) :
    left (listItems (depth + 1) cs) = value depth cs >>= fun p =>
      leftTurning (fun after => left (listItems depth after)) ']' .listMark p.2 := by
  rw [listItems_succ, left_bind]
  refine bind_congr ?_
  rintro ⟨v, rest⟩
  unfold leftTurning
  dsimp only
  cases skipBlanks rest with
  | nil => rfl
  | cons c after =>
    by_cases hmore : c = ','
    · subst hmore
      exact left_bind_pure (listItems depth after) (v :: ·)
    by_cases hclose : c = ']'
    · subst hclose
      rfl
    · simp only [hmore, hclose, if_false]
      split
      · next heq => exact absurd (List.cons.inj heq).1 hmore
      · next heq => exact absurd (List.cons.inj heq).1 hclose
      · rfl

theorem left_objectMembers_succ (depth : Nat) (before : Members) (cs : List Char) :
    left (objectMembers (depth + 1) before cs) = key cs >>= fun k => arrow k.2 >>= fun a =>
      value depth a.2 >>= fun p =>
        leftTurning (fun after => left (objectMembers depth [] after)) '\x7d' .objectMark p.2 := by
  rw [objectMembers_succ]
  simp only [left_bind]
  refine bind_congr fun k => bind_congr fun a => bind_congr ?_
  rintro ⟨v, rest⟩
  unfold leftTurning
  dsimp only
  cases skipBlanks rest with
  | nil => rfl
  | cons c after =>
    by_cases hmore : c = ','
    · subst hmore
      exact left_objectMembers depth _ after
    by_cases hclose : c = '\x7d'
    · subst hclose
      rfl
    · simp only [hmore, hclose, if_false]
      split
      · next heq => exact absurd (List.cons.inj heq).1 hmore
      · next heq => exact absurd (List.cons.inj heq).1 hclose
      · rfl

theorem left_items (cs : List Char) :
    left (listItems (depthFor cs) cs) = readOn (.ok ([.value, .afterItem], cs)) := by
  have hstep : readOn (.ok ([.value, .afterItem], cs)) =
      value (depthFor cs) cs >>= fun p => Part.read .afterItem p.2 := by
    have hparts : readOn (.ok ([.value, .afterItem], cs)) =
        left (value (depthFor cs) cs) >>= fun p => readParts [.afterItem] p.2 := rfl
    simp only [hparts, left, bind_assoc, pure_bind, readParts_single]
  -- the next turn begins in a shorter text, where the bound on the nesting does not matter either
  have hread := left_listItems_succ (2 * cs.length + 1) cs
  rw [value_of_depth (Nat.le_refl _)] at hread
  refine Eq.trans hread (Eq.trans (bind_congr_ok fun p hp => ?_) hstep.symm)
  have hrest := (hp ▸ proceeds_value _ cs).of_ok.2
  refine leftTurning_congr fun after hafter => ?_
  rw [listItems_of_depth (by unfold depthFor; omega)]

theorem left_members (cs : List Char) :
    left (objectMembers (depthFor cs) [] cs) =
      readOn (.ok ([.key, .arrow, .value, .afterMember], cs)) := by
  refine Eq.trans (left_objectMembers_succ (2 * cs.length + 1) [] cs)
    (Eq.trans ?_ (readParts_keyed [.afterMember] cs).symm)
  refine bind_congr_ok fun k hk => bind_congr_ok fun a ha => ?_
  have hbody := length_of_keyed hk ha
  rw [value_of_depth (by omega)]
  refine bind_congr_ok fun p hp => ?_
  have hrest := (hp ▸ proceeds_value _ a.2).of_ok.2
  refine Eq.trans (leftTurning_congr fun after hafter => ?_) (readParts_single .afterMember p.2).symm
  rw [objectMembers_of_depth _ (by unfold depthFor; omega)]

theorem value_eq_list {cs rest : List Char} (h : skipBlanks cs = '[' :: rest) :
    value (depthFor cs) cs = list ('[' :: rest) := by
  have hshort := length_of_next h
  by_cases hclose : ∃ after, skipBlanks rest = ']' :: after
  · obtain ⟨after, hclose⟩ := hclose
    exact (value_emptyList _ h hclose).trans (enclosed_closed (by decide) hclose).symm
  · have hopen := not_exists.1 hclose
    have hblanks := length_skipBlanks_le rest
    rw [list, enclosed_filled (by decide) hopen, depthFor, value_opensList _ h hopen,
      ← listItems_skipBlanks, listItems_of_depth (by unfold depthFor; omega)]
    cases listItems (depthFor (skipBlanks rest)) (skipBlanks rest) <;> rfl

theorem value_eq_object {cs rest : List Char} (h : skipBlanks cs = '\x7b' :: rest) :
    value (depthFor cs) cs = object ('\x7b' :: rest) := by
  have hshort := length_of_next h
  by_cases hclose : ∃ after, skipBlanks rest = '\x7d' :: after
  · obtain ⟨after, hclose⟩ := hclose
    exact (value_emptyObject _ h hclose).trans (enclosed_closed (by decide) hclose).symm
  · have hopen := not_exists.1 hclose
    have hblanks := length_skipBlanks_le rest
    rw [object, enclosed_filled (by decide) hopen, depthFor, value_opensObject _ h hopen,
      ← objectMembers_skipBlanks, objectMembers_of_depth _ (by unfold depthFor; omega)]
    cases objectMembers (depthFor (skipBlanks rest)) [] (skipBlanks rest) <;> rfl

theorem value_eq_property {cs rest : List Char} (h : skipBlanks cs = '(' :: rest) :
    value (depthFor cs) cs = property ('(' :: rest) := by
  have hshort := length_of_next h
  refine Eq.trans (value_opensProperty _ h) ?_
  refine bind_congr_ok fun k hk => bind_congr_ok fun a ha => ?_
  have hbody := length_of_keyed hk ha
  dsimp only
  rw [value_of_depth (by omega)]

theorem left_value (cs : List Char) : left (value (depthFor cs) cs) = readOn (valueStep cs) := by
  cases hnext : skipBlanks cs with
  | nil =>
    rw [valueStep, depthFor, value_succ, hnext]
    rfl
  | cons c rest =>
    have hstep : readOn (valueStep cs) = (Part.starting c).read (c :: rest) := by
      rw [valueStep, hnext]
      exact readOn_single _ _
    rw [hstep]
    unfold Part.starting
    by_cases hquote : c = '"'
    · subst hquote
      rw [depthFor, value_succ, hnext]
      exact left_bind_pure (string ('"' :: rest)) Json.str
    by_cases hlist : c = '['
    · subst hlist
      rw [value_eq_list hnext]
      rfl
    by_cases hobject : c = '\x7b'
    · subst hobject
      rw [value_eq_object hnext]
      rfl
    by_cases hproperty : c = '('
    · subst hproperty
      rw [value_eq_property hnext]
      rfl
    have hnothing : ∀ d more, skipBlanks cs = d :: more → d ∉ ['[', '\x7b', '('] := by
      intro d more heq
      rw [← (List.cons.inj (hnext.symm.trans heq)).1]
      simp only [List.mem_cons, List.not_mem_nil, hlist, hobject, hproperty, or_self, not_false_iff]
    rw [depthFor, value_opensNothing _ hnothing, value_succ, hnext]
    simp only [hquote, hlist, hobject, hproperty, if_false]
    split
    · rfl
    · rfl

theorem read_step (part : Part) (cs : List Char) : part.read cs = readOn (part.step cs) := by
  cases part with
  | value => exact left_value cs
  | string => exact left_string cs
  | stringBody => exact left_stringBody cs
  | number => exact (readOn_alone (TypedLiteral.number cs)).symm
  | list => exact left_list cs
  | items => exact left_items cs
  | afterItem => exact (readOn_turning .items cs).symm
  | object => exact left_object cs
  | members => exact left_members cs
  | afterMember => exact (readOn_turning .members cs).symm
  | property => exact left_property cs
  | bytes => exact left_bytes cs
  | byteItems => exact left_byteItems cs
  | key => exact left_key cs
  | arrow => exact ((readOn_alone (TypedLiteral.arrow cs)).trans (left_unit _)).symm
  | mark c => exact ((readOn_alone (TypedLiteral.mark c cs)).trans (left_unit _)).symm
  | keyword => exact left_keyword cs
  | bigNumber => exact left_bigNumber cs

/-- Steps taken one after the other come to what the reader gives. -/
theorem readParts_of_run {n : Nat} {parts : List Part} {cs : List Char}
    {r : Except Failure (Unit × List Char)} (h : run n parts cs = some r) : readParts parts cs = r := by
  induction n generalizing parts cs with
  | zero =>
    cases parts with
    | nil => exact Option.some.inj h
    | cons part parts => cases h
  | succ n ih =>
    cases parts with
    | nil => exact Option.some.inj h
    | cons part parts =>
      rw [run] at h
      rw [readParts, read_step]
      cases hstep : part.step cs with
      | error failure =>
        rw [hstep] at h
        exact Option.some.inj h
      | ok p =>
        obtain ⟨more, rest⟩ := p
        rw [hstep] at h
        have hrest := ih h
        rw [readParts_append] at hrest
        exact hrest

/-- Reads a part at a position of a text and gives the position behind it. -/
def Part.readAt (part : Part) (s : String) (pos : Nat) : Except Fault Nat :=
  match part.read (s.toList.drop pos) with
  | .ok (_, rest) => .ok (s.length - rest.length)
  | .error failure => .error (.literal s failure)

theorem eq_drop_of_suffix {s : String} {rest : List Char} (h : rest <:+ s.toList) :
    rest = s.toList.drop (s.length - rest.length) := by
  rw [← String.length_toList]
  exact List.suffix_iff_eq_drop.1 h

/-- Wherever in a text a part is read, reading ends: at most seven steps are taken for a character that
is left, and as many more as the part weighs. It ends further on in the text or with an error, and a
position that the error names lies in the text. Only an integer of too many digits is refused by an error
that names none. -/
theorem readAt_ends (part : Part) (s : String) (pos : Nat) (hpos : pos ≤ s.length) :
    run (7 * (s.length - pos) + part.weight) [part] (s.toList.drop pos) =
      some (part.read (s.toList.drop pos)) ∧
    (∀ next, part.readAt s pos = .ok next →
      part.read (s.toList.drop pos) = .ok ((), s.toList.drop next) ∧ pos < next ∧ next ≤ s.length) ∧
    (∀ problem position, part.readAt s pos = .error (.deploy (.literal s problem position)) →
      pos ≤ position ∧ position ≤ s.length) ∧
    ∀ fault, part.readAt s pos = .error fault →
      (∃ problem position, fault = .deploy (.literal s problem position)) ∨
        ∃ n, fault = .oversizeReading n ∧ DigitRun n (s.toList.drop pos) := by
  have hlength : (s.toList.drop pos).length = s.length - pos := by
    rw [List.length_drop, String.length_toList]
  have hcost : cost [part] (s.toList.drop pos) = 7 * (s.length - pos) + part.weight := by
    rw [cost, hlength, weights_cons, weights_nil, Nat.add_zero]
  obtain ⟨r, hrun, hsettles⟩ := run_settles (Nat.le_of_eq hcost)
  have hread : part.read (s.toList.drop pos) = r := by
    rw [← readParts_single]
    exact readParts_of_run hrun
  have hdrop : s.toList.drop pos <:+ s.toList := List.drop_suffix pos _
  unfold Part.readAt
  rw [hread]
  refine ⟨hrun, ?_⟩
  cases hsettles with
  | @ok rest hrest hshort =>
    have hless := hshort (List.cons_ne_nil part [])
    have hdropped := eq_drop_of_suffix (hrest.trans hdrop)
    refine ⟨fun next h => ?_, fun _ _ h => ?_, fun _ h => ?_⟩
    · cases h
      exact ⟨congrArg (fun rest => Except.ok ((), rest)) hdropped, by omega, by omega⟩
    · cases h
    · cases h
  | @malformed problem rest hrest =>
    have hle := hrest.length_le
    refine ⟨fun _ h => ?_, fun _ position h => ?_, fun fault h => ?_⟩
    · cases h
    · cases h
      exact ⟨by omega, by omega⟩
    · cases h
      exact .inl ⟨_, _, rfl⟩
  | @oversize n hdigits =>
    refine ⟨fun _ h => ?_, fun _ _ h => ?_, fun fault h => ?_⟩
    · cases h
    · cases h
    · cases h
      exact .inr ⟨n, rfl, hdigits⟩

/-- Bytes that are never closed end where the text does. -/
theorem readAt_ends_unclosed : 5 ≤ "bytes\x7b0x01, 0xff".length ∧
    run 78 [.bytes] ("bytes\x7b0x01, 0xff".toList.drop 5) = some (.error (.malformed .hexByte [])) :=
  ⟨by decide, (readAt_ends .bytes "bytes\x7b0x01, 0xff" 5 (by decide)).1⟩

end TypedLiteral

end ServerDeploy
