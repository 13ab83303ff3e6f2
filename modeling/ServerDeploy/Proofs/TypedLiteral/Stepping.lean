import ServerDeploy.Proofs.TypedLiteral.Overlong

/-! Literals read one step at a time. What is still to be read is a list of parts, the next one first; a
step takes the first part, goes on in the text and puts the parts that it comes to in its place. There is
no bound on the nesting or on the turns of a loop here: a run ends by itself, since each step leaves less
text, or as much and less to read in it. -/

namespace ServerDeploy

namespace TypedLiteral

/-- What can come next in a text. Lists, objects, strings and bytes are read in a loop, of which
`items`, `members`, `stringBody` and `byteItems` are the turns. -/
inductive Part where
  | value
  | string
  | stringBody
  | number
  | list
  | items
  | afterItem
  | object
  | members
  | afterMember
  | property
  | bytes
  | byteItems
  | key
  | arrow
  | mark (c : Char)
  | keyword
  | bigNumber
  deriving DecidableEq, Repr

/-- The kind of value that begins with this character. -/
def Part.starting (c : Char) : Part :=
  if c = '"' then .string
  else if c = '[' then .list
  else if c = '\x7b' then .object
  else if c = '(' then .property
  else if c = '-' ∨ isDigitSign c then .number
  else .keyword

/-- The parts `parts` once a reading is done, whatever it gives. -/
def followedBy {α : Type} (r : Except Failure (α × List Char)) (parts : List Part) :
    Except Failure (List Part × List Char) := do
  let (_, rest) ← r
  pure (parts, rest)

/-- A mark that opens something, which may be closed at once. -/
def opening (opens closes : Char) (inside : Part) (cs : List Char) :
    Except Failure (List Part × List Char) := do
  let (_, rest) ← mark opens cs
  match skipBlanks rest with
  | [] => pure ([inside], [])
  | c :: after => pure (if c = closes then ([], after) else ([inside], c :: after))

/-- The end of a turn: a comma and another turn, or the closing mark. -/
def turning (turn : Part) (closes : Char) (problem : Problem) (cs : List Char) :
    Except Failure (List Part × List Char) :=
  match skipBlanks cs with
  | [] => .error (.malformed problem [])
  | c :: rest =>
    if c = ',' then .ok ([turn], rest)
    else if c = closes then .ok ([], rest)
    else .error (.malformed problem (c :: rest))

/-- A value is of the kind that its first character tells. -/
def valueStep (cs : List Char) : Except Failure (List Part × List Char) :=
  match skipBlanks cs with
  | [] => .error (.malformed .endOfInput [])
  | c :: rest => .ok ([.starting c], c :: rest)

/-- One character of a string, or an escaped one. -/
def characterStep : List Char → Except Failure (List Part × List Char)
  | [] => .error (.malformed .unterminatedString [])
  | c :: cs =>
    if c = '"' then .ok ([], cs)
    else if c = '\\' then
      match cs with
      | [] => .error (.malformed .unterminatedString [])
      | _ :: rest => .ok ([.stringBody], rest)
    else .ok ([.stringBody], cs)

/-- The text behind a comma that may be left out. -/
def behindComma (cs : List Char) : List Char :=
  match skipBlanks cs with
  | ',' :: after => after
  | rest => rest

/-- One byte, with the comma behind it. -/
def byteStep (cs : List Char) : Except Failure (List Part × List Char) :=
  match skipBlanks cs with
  | '\x7d' :: rest => .ok ([], rest)
  | start =>
    match hexByte? start with
    | none => .error (.malformed .hexByte start)
    | some (_, rest) => .ok ([.byteItems], behindComma rest)

def keyStep (cs : List Char) : Except Failure (List Part × List Char) :=
  match skipBlanks cs with
  | '"' :: rest => .ok ([.string], '"' :: rest)
  | start =>
    match word? start with
    | none => .error (.malformed .key start)
    | some (_, rest) => .ok ([], rest)

def keywordStep (cs : List Char) : Except Failure (List Part × List Char) :=
  match word? (skipBlanks cs) with
  | none => .error (.malformed .character (skipBlanks cs))
  | some (w, rest) =>
    let name := String.ofList w
    if name = "true" then .ok ([], rest)
    else if name = "false" then .ok ([], rest)
    else if name = "undefined" then .ok ([], rest)
    else if name = "expression" then .ok ([.string], rest)
    else if name = "bytes" then .ok ([.bytes], rest)
    else if name = "big" then .ok ([.bigNumber], rest)
    else .error (.malformed (.keyword name) rest)

def bigNumberStep (cs : List Char) : Except Failure (List Part × List Char) :=
  match word? (skipBlanks cs) with
  | none => .error (.malformed .numberKind (skipBlanks cs))
  | some (w, rest) =>
    let kind := String.ofList w
    if kind = "integer" ∨ kind = "decimal" then .ok ([.number], rest)
    else .error (.malformed (.unknownNumberKind kind) rest)

/-- One step of reading a part: what is to be read in its place, and where. -/
def Part.step (part : Part) (cs : List Char) : Except Failure (List Part × List Char) :=
  match part with
  | .value => valueStep cs
  | .string => followedBy (TypedLiteral.mark '"' cs) [.stringBody]
  | .stringBody => characterStep cs
  | .number => followedBy (TypedLiteral.number cs) []
  | .list => opening '[' ']' .items cs
  | .items => .ok ([.value, .afterItem], cs)
  | .afterItem => turning .items ']' .listMark cs
  | .object => opening '\x7b' '\x7d' .members cs
  | .members => .ok ([.key, .arrow, .value, .afterMember], cs)
  | .afterMember => turning .members '\x7d' .objectMark cs
  | .property => followedBy (TypedLiteral.mark '(' cs) [.key, .arrow, .value, .mark ')']
  | .bytes => followedBy (TypedLiteral.mark '\x7b' cs) [.byteItems]
  | .byteItems => byteStep cs
  | .key => keyStep cs
  | .arrow => followedBy (TypedLiteral.arrow cs) []
  | .mark c => followedBy (TypedLiteral.mark c cs) []
  | .keyword => keywordStep cs
  | .bigNumber => bigNumberStep cs

/-- What a part counts among the steps that are left: more than all that it puts in its place while the
text stays as it is, and no more than a character. -/
def Part.weight : Part → Nat
  | .members => 7
  | .items => 4
  | .value => 2
  | .key => 2
  | _ => 1

def weights : List Part → Nat
  | [] => 0
  | part :: parts => part.weight + weights parts

/-- A bound on the steps that are left. -/
def cost (parts : List Part) (cs : List Char) : Nat := 7 * cs.length + weights parts

/-- Reads parts one after the other, in at most `n` steps; `none` when these do not suffice. -/
def run : Nat → List Part → List Char → Option (Except Failure (Unit × List Char))
  | _, [], cs => some (.ok ((), cs))
  | 0, _ :: _, _ => none
  | n + 1, part :: parts, cs =>
    match part.step cs with
    | .error failure => some (.error failure)
    | .ok (more, rest) => run n (more ++ parts) rest

@[simp] theorem weights_nil : weights [] = 0 := rfl

@[simp] theorem weights_cons (part : Part) (parts : List Part) :
    weights (part :: parts) = part.weight + weights parts := rfl

@[simp] theorem weights_append (parts more : List Part) :
    weights (parts ++ more) = weights parts + weights more := by
  induction parts with
  | nil => simp
  | cons part parts ih => rw [List.cons_append, weights_cons, ih, weights_cons, Nat.add_assoc]

theorem Part.starting_weight (c : Char) : (Part.starting c).weight = 1 := by
  simp only [Part.starting, apply_ite Part.weight]
  simp only [Part.weight, ite_self]

theorem Part.weight_pos (part : Part) : 1 ≤ part.weight := by
  unfold Part.weight
  split <;> decide

/-- What a step may come to: a place further on or with less to read, a problem placed in the text, or
an integer of too many digits that stands there. -/
inductive Advances (part : Part) (cs : List Char) : Except Failure (List Part × List Char) → Prop
  | on {parts : List Part} {rest : List Char} (hrest : rest <:+ cs)
      (hcost : cost parts rest < cost [part] cs) (hlast : parts = [] → rest.length < cs.length) :
      Advances part cs (.ok (parts, rest))
  | malformed (problem : Problem) {rest : List Char} (hrest : rest <:+ cs) :
      Advances part cs (.error (.malformed problem rest))
  | oversize {n : Nat} (h : DigitRun n cs) : Advances part cs (.error (.oversize n))

section Advances

variable {part : Part} {parts : List Part} {cs rest : List Char}

/-- A step over text may put any part in its place, for none weighs more than the text. -/
theorem Advances.over (hrest : rest <:+ cs) (hlength : rest.length + 1 ≤ cs.length)
    (hweights : weights parts ≤ 7) : Advances part cs (.ok (parts, rest)) := by
  have hpart := part.weight_pos
  refine .on hrest ?_ fun _ => hlength
  simp only [cost, weights_cons, weights_nil]
  omega

/-- A step that leaves the text as it is has to come to lighter parts. -/
theorem Advances.into (hne : parts ≠ []) (hrest : rest <:+ cs) (hweights : weights parts < part.weight) :
    Advances part cs (.ok (parts, rest)) := by
  have hlength := hrest.length_le
  refine .on hrest ?_ fun hnil => absurd hnil hne
  simp only [cost, weights_cons, weights_nil]
  omega

theorem Advances.ite {P : Prop} [Decidable P] {r s : Except Failure (List Part × List Char)}
    (hr : Advances part cs r) (hs : Advances part cs s) : Advances part cs (if P then r else s) := by
  split
  · exact hr
  · exact hs

theorem advances_followedBy {α : Type} {r : Except Failure (α × List Char)} (h : Proceeds 1 cs r)
    (hlong : ∀ n, r = .error (.oversize n) → DigitRun n cs) (hweights : weights parts ≤ 7) :
    Advances part cs (followedBy r parts) := by
  cases h with
  | ok v hrest hlength => exact .over hrest hlength hweights
  | malformed problem hrest => exact .malformed problem hrest
  | oversize n => exact .oversize (hlong n rfl)

theorem advances_followedBy_token {α : Type} {r : Except Failure (α × List Char)} (h : Proceeds 1 cs r)
    (htoken : Fails Failure.IsProblem r) (hweights : weights parts ≤ 7) :
    Advances part cs (followedBy r parts) :=
  advances_followedBy h (fun _ heq => absurd heq (ne_oversize htoken)) hweights

theorem advances_opening (opens closes : Char) {inside : Part} (hinside : inside.weight ≤ 7) :
    Advances part cs (opening opens closes inside cs) := by
  have hmark := proceeds_mark opens cs
  have htoken := fails_mark cs opens
  unfold opening
  generalize mark opens cs = r at hmark htoken
  cases hmark with
  | malformed problem hrest => exact .malformed problem hrest
  | oversize n => exact absurd rfl (ne_oversize htoken)
  | @ok _ rest hrest hlength =>
    have hskip := skipBlanks_suffix rest
    have hshort := hskip.length_le
    simp only [bind, Except.bind]
    cases hnext : skipBlanks rest with
    | nil => exact .over List.nil_suffix (by simp only [List.length_nil]; omega) (by simpa using hinside)
    | cons c after =>
      rw [hnext] at hskip hshort
      rw [List.length_cons] at hshort
      dsimp only
      split
      · exact .over (((List.suffix_cons c after).trans hskip).trans hrest) (by omega) (by simp)
      · exact .over (hskip.trans hrest) (by rw [List.length_cons]; omega) (by simpa using hinside)

theorem advances_turning {turn : Part} (hturn : turn.weight ≤ 7) (closes : Char) (problem : Problem) :
    Advances part cs (turning turn closes problem cs) := by
  have hskip := skipBlanks_suffix cs
  unfold turning
  cases hnext : skipBlanks cs with
  | nil => exact .malformed problem List.nil_suffix
  | cons c rest =>
    rw [hnext] at hskip
    have hrest := (List.suffix_cons c rest).trans hskip
    have hlength := length_of_next hnext
    refine .ite (.over hrest hlength ?_) (.ite (.over hrest hlength ?_) (.malformed problem hskip))
    · simpa using hturn
    · simp

theorem advances_valueStep : Advances .value cs (valueStep cs) := by
  have hskip := skipBlanks_suffix cs
  unfold valueStep
  cases hnext : skipBlanks cs with
  | nil => exact .malformed _ List.nil_suffix
  | cons c rest =>
    rw [hnext] at hskip
    refine .into (List.cons_ne_nil _ _) hskip ?_
    rw [weights_cons, Part.starting_weight]
    decide

theorem advances_characterStep : Advances part cs (characterStep cs) := by
  fun_cases characterStep cs with
  | case1 => exact .malformed _ List.nil_suffix
  | case2 cs => exact .over (List.suffix_cons _ cs) (by simp) (by simp)
  | case3 => exact .malformed _ List.nil_suffix
  | case4 e rest =>
    exact .over ((List.suffix_cons e rest).trans (List.suffix_cons _ _)) (by simp) (by decide)
  | case5 c cs => exact .over (List.suffix_cons c cs) (by simp) (by decide)

theorem behindComma_suffix (cs : List Char) : behindComma cs <:+ cs := by
  have hskip := skipBlanks_suffix cs
  unfold behindComma
  split
  · next after hnext => exact (List.suffix_cons ',' after).trans (hnext ▸ hskip)
  · exact hskip

theorem advances_byteStep : Advances part cs (byteStep cs) := by
  have hskip := skipBlanks_suffix cs
  fun_cases byteStep cs with
  | case1 rest hnext =>
    exact .over ((List.suffix_cons _ rest).trans (hnext ▸ hskip)) (length_of_next hnext) (by simp)
  | case2 => exact .malformed _ hskip
  | case3 b rest hopen hbyte =>
    obtain ⟨hrest, hlength⟩ := hexByte?_proceeds hbyte
    have hcomma := behindComma_suffix rest
    have hshort := hskip.length_le
    have hshorter := hcomma.length_le
    exact .over (hcomma.trans (hrest.trans hskip)) (by omega) (by decide)

theorem advances_keyStep : Advances .key cs (keyStep cs) := by
  have hskip := skipBlanks_suffix cs
  fun_cases keyStep cs with
  | case1 rest hnext => exact .into (by simp) (hnext ▸ hskip) (by decide)
  | case2 => exact .malformed _ hskip
  | case3 w rest hopen hword =>
    obtain ⟨hrest, hlength⟩ := word?_proceeds hword
    have hshort := hskip.length_le
    exact .over (hrest.trans hskip) (by omega) (by simp)

theorem advances_keywordStep : Advances part cs (keywordStep cs) := by
  have hskip := skipBlanks_suffix cs
  unfold keywordStep
  split
  · exact .malformed _ hskip
  · next w rest hword =>
    obtain ⟨hrest, hlength⟩ := word?_proceeds hword
    have hshort := hskip.length_le
    have hover (parts : List Part) (h : weights parts ≤ 7) : Advances part cs (.ok (parts, rest)) :=
      .over (hrest.trans hskip) (by omega) h
    have hdone := hover [] (by decide)
    have hstring := hover [.string] (by decide)
    have hbytes := hover [.bytes] (by decide)
    have hnumber := hover [.bigNumber] (by decide)
    have hunknown : Advances part cs (.error (.malformed (.keyword (String.ofList w)) rest)) :=
      .malformed _ (hrest.trans hskip)
    exact .ite hdone (.ite hdone (.ite hdone (.ite hstring (.ite hbytes (.ite hnumber hunknown)))))

theorem advances_bigNumberStep : Advances part cs (bigNumberStep cs) := by
  have hskip := skipBlanks_suffix cs
  unfold bigNumberStep
  split
  · exact .malformed _ hskip
  · next w rest hword =>
    obtain ⟨hrest, hlength⟩ := word?_proceeds hword
    have hshort := hskip.length_le
    exact .ite (.over (hrest.trans hskip) (by omega) (by decide)) (.malformed _ (hrest.trans hskip))

theorem advances_step (part : Part) (cs : List Char) : Advances part cs (part.step cs) := by
  cases part with
  | value => exact advances_valueStep
  | string => exact advances_followedBy_token (proceeds_mark _ cs) (fails_mark cs _) (by decide)
  | stringBody => exact advances_characterStep
  | number =>
    exact advances_followedBy (proceeds_number cs) (fun n h => (TooLong.of_number h).digitRun) (by simp)
  | list => exact advances_opening _ _ (by decide)
  | items => exact .into (by simp) (List.suffix_refl cs) (by decide)
  | afterItem => exact advances_turning (by decide) _ _
  | object => exact advances_opening _ _ (by decide)
  | members => exact .into (by simp) (List.suffix_refl cs) (by decide)
  | afterMember => exact advances_turning (by decide) _ _
  | property => exact advances_followedBy_token (proceeds_mark _ cs) (fails_mark cs _) (by decide)
  | bytes => exact advances_followedBy_token (proceeds_mark _ cs) (fails_mark cs _) (by decide)
  | byteItems => exact advances_byteStep
  | key => exact advances_keyStep
  | arrow => exact advances_followedBy_token (proceeds_arrow cs) (fails_arrow cs) (by simp)
  | mark c => exact advances_followedBy_token (proceeds_mark c cs) (fails_mark cs c) (by simp)
  | keyword => exact advances_keywordStep
  | bigNumber => exact advances_bigNumberStep

end Advances

/-- What a whole run may come to. Where anything was to be read, text has been read. -/
inductive Settles (parts : List Part) (cs : List Char) : Except Failure (Unit × List Char) → Prop
  | ok {rest : List Char} (hrest : rest <:+ cs) (hlength : parts ≠ [] → rest.length < cs.length) :
      Settles parts cs (.ok ((), rest))
  | malformed (problem : Problem) {rest : List Char} (hrest : rest <:+ cs) :
      Settles parts cs (.error (.malformed problem rest))
  | oversize {n : Nat} (h : DigitRun n cs) : Settles parts cs (.error (.oversize n))

theorem Settles.after {parts more : List Part} {cs rest : List Char}
    {r : Except Failure (Unit × List Char)} (h : Settles more rest r) (hrest : rest <:+ cs)
    (hlast : more = [] → rest.length < cs.length) : Settles parts cs r := by
  cases h with
  | @ok last hsuffix hlength =>
    refine .ok (hsuffix.trans hrest) fun _ => ?_
    have hsame := hrest.length_le
    have hshort := hsuffix.length_le
    by_cases hmore : more = []
    · have hless := hlast hmore
      omega
    · have hless := hlength hmore
      omega
  | malformed problem hsuffix => exact .malformed problem (hsuffix.trans hrest)
  | oversize h => exact .oversize (h.of_suffix hrest)

/-- A run ends within the steps that its cost allows. -/
theorem run_settles {n : Nat} {parts : List Part} {cs : List Char} (h : cost parts cs ≤ n) :
    ∃ r, run n parts cs = some r ∧ Settles parts cs r := by
  -- on the steps: the cost falls with each of them, so none is missing in the end
  induction n generalizing parts cs with
  | zero =>
    cases parts with
    | nil => exact ⟨_, rfl, .ok (List.suffix_refl cs) (absurd rfl)⟩
    | cons part parts =>
      have hpart := part.weight_pos
      simp only [cost, weights_cons] at h
      omega
  | succ n ih =>
    cases parts with
    | nil => exact ⟨_, rfl, .ok (List.suffix_refl cs) (absurd rfl)⟩
    | cons part parts =>
      have hstep := advances_step part cs
      rw [run]
      generalize part.step cs = r at hstep
      cases hstep with
      | malformed problem hrest => exact ⟨_, rfl, .malformed problem hrest⟩
      | oversize hdigits => exact ⟨_, rfl, .oversize hdigits⟩
      | @on more rest hrest hcost hlast =>
        have hless : cost (more ++ parts) rest ≤ n := by
          simp only [cost, weights_cons, weights_nil, weights_append] at h hcost ⊢
          omega
        obtain ⟨r, hr, hsettles⟩ := ih hless
        exact ⟨r, hr, hsettles.after hrest fun hnil => hlast (List.append_eq_nil_iff.1 hnil).1⟩

end TypedLiteral

end ServerDeploy
