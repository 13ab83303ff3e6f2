import Mathlib.Data.List.Forall2
import ServerDeploy.Command.Reader
import ServerDeploy.Proofs.Command.Cutting
import ServerDeploy.Proofs.Text.Cuts
import ServerDeploy.Proofs.TypedLiteral.Overlong

/-! The grammar of commands. A command is read exactly when its text has a certain form, which is given
here by what is written before and behind each separator, without reference to how it is found. -/

namespace ServerDeploy

namespace Command

open TypedLiteral

/-- A node with a key and a value. Blanks count in the key, but not when it is read. -/
inductive ReadsNode : List Char → String × String → Prop
  | node {key value : List Char} (hkey : key ≠ []) (hequals : '=' ∉ key)
      (hvalue : unquote (trimBlanks value) ≠ []) :
      ReadsNode (key ++ '=' :: value)
        (String.ofList (trimBlanks key), String.ofList (unquote (trimBlanks value)))

/-- The nodes of an address. -/
inductive WritesNodes : List Char → List (List Char) → Prop
  | empty : WritesNodes [] []
  | root : WritesNodes ['/'] []
  | nodes {nodes : List (List Char)} (hne : joinWith '/' nodes ≠ [])
      (hwhole : ∀ node ∈ nodes, Whole '/' node) : WritesNodes ('/' :: joinWith '/' nodes) nodes

/-- A parameter, with a value or switched on. -/
inductive ReadsParameter : List Char → String × Json → Prop
  | switch {cs : List Char} (hequals : '=' ∉ cs) (hname : ¬AllBlank cs) :
      ReadsParameter cs (String.ofList (trimBlanks cs), .bool true)
  | assigned {key value : List Char} {v : Json} (hequals : '=' ∉ key) (hname : ¬AllBlank key)
      (hvalue : readValue value = .ok v) :
      ReadsParameter (key ++ '=' :: value) (String.ofList (trimBlanks key), v)

/-- The name of an operation and the texts of its parameters. -/
inductive WritesRequest : List Char → List Char → List (List Char) → Prop
  | bare {name : List Char} (hopen : '(' ∉ name) : WritesRequest name name []
  | empty {name inside : List Char} (hopen : '(' ∉ name) (hinside : AllBlank inside) :
      WritesRequest (name ++ '(' :: (inside ++ [')'])) (trimBlanks name) []
  | parameters {name inside : List Char} {parts : List (List Char)} (hopen : '(' ∉ name)
      (hne : parts ≠ []) (hinside : trimBlanks inside = joinWith ',' parts) (hblank : ¬AllBlank inside)
      (hwhole : ∀ part ∈ parts, Whole ',' part) :
      WritesRequest (name ++ '(' :: (inside ++ [')'])) (trimBlanks name) parts

/-- The pieces of a command, with what is read from them. -/
structure Form where
  address : List Char
  request : List Char
  nodes : List (List Char)
  segments : List (String × String)
  name : List Char
  parts : List (List Char)
  parameters : List (String × Json)

/-- A command is of the form when its pieces are written in it so. The colon in front of the request is
the first outside quotes and brackets. -/
structure Form.Of (command : String) (f : Form) : Prop where
  text : trimBlanks command.toList = f.address ++ ':' :: f.request
  whole : Whole ':' f.address
  closed : Nesting.outside.after f.request = .outside
  nodes : WritesNodes (trimBlanks f.address) f.nodes
  segments : List.Forall₂ ReadsNode f.nodes f.segments
  request : WritesRequest (trimBlanks f.request) f.name f.parts
  named : f.name ≠ []
  parameters : List.Forall₂ ReadsParameter f.parts f.parameters

def Form.operation (f : Form) : Operation :=
  Members.setAll (Operation.make (String.ofList f.name) ⟨f.segments⟩ []) f.parameters

theorem nodeSegment_eq_ok_iff {command : String} {node : List Char} {segment : String × String} :
    nodeSegment command node = .ok segment ↔ ReadsNode node segment := by
  constructor
  · intro h
    unfold nodeSegment at h
    split at h
    · next key value hcut =>
      obtain ⟨rfl, hequals⟩ := eq_append_of_cutAtChar hcut
      dsimp only at h
      split at h
      · cases h
      · next hne =>
        simp only [Bool.or_eq_true, List.isEmpty_iff, not_or] at hne
        cases h
        exact .node hne.1 hequals hne.2
    · cases h
  · rintro ⟨hkey, hequals, hvalue⟩
    unfold nodeSegment
    rw [cutAtChar_append hequals]
    simp [hkey, hvalue]

theorem nodeSegments_eq_ok_iff {command : String} {nodes : List (List Char)}
    {segments : List (String × String)} :
    nodeSegments command nodes = .ok segments ↔ List.Forall₂ ReadsNode nodes segments := by
  induction nodes generalizing segments with
  | nil =>
    rw [List.forall₂_nil_left_iff]
    simp [nodeSegments, eq_comm]
  | cons node nodes ih =>
    rw [List.forall₂_cons_left_iff]
    constructor
    · intro h
      obtain ⟨segment, hsegment, h⟩ := eq_ok_of_bind h
      obtain ⟨others, hothers, h⟩ := eq_ok_of_bind h
      cases h
      exact ⟨segment, others, nodeSegment_eq_ok_iff.1 hsegment, ih.1 hothers, rfl⟩
    · rintro ⟨segment, others, hsegment, hothers, rfl⟩
      simp only [nodeSegments, nodeSegment_eq_ok_iff.2 hsegment, ih.2 hothers]
      rfl

theorem readAddress_eq_ok_iff {command : String} {cs : List Char} {a : Address} :
    readAddress command cs = .ok a ↔
      ∃ nodes, WritesNodes (trimBlanks cs) nodes ∧ List.Forall₂ ReadsNode nodes a.segments := by
  unfold readAddress
  constructor
  · intro h
    split at h
    · next hempty =>
      cases h
      rw [hempty]
      exact ⟨[], .empty, .nil⟩
    · next hroot =>
      cases h
      rw [hroot]
      exact ⟨[], .root, .nil⟩
    · next text hnode hslash =>
      obtain ⟨nodes, hsplit, h⟩ := eq_ok_of_bind h
      obtain ⟨segments, hsegments, h⟩ := eq_ok_of_bind h
      cases h
      obtain ⟨hne, rfl, hwhole⟩ := (split_eq_ok_iff (by decide)).1 hsplit
      rw [hslash]
      exact ⟨nodes, .nodes hnode hwhole, nodeSegments_eq_ok_iff.1 hsegments⟩
    · cases h
  · obtain ⟨segments⟩ := a
    rintro ⟨nodes, hnodes, hsegments⟩
    generalize trimBlanks cs = text at hnodes
    cases hnodes with
    | empty =>
      cases hsegments
      rfl
    | root =>
      cases hsegments
      rfl
    | nodes hne hwhole =>
      have hnodes : nodes ≠ [] := by
        rintro rfl
        exact hne rfl
      have hsplit := (split_eq_ok_iff (by decide)).2 ⟨hnodes, rfl, hwhole⟩
      split
      · next heq => cases heq
      · next heq => exact absurd (List.cons.inj heq).2 hne
      · next heq =>
        obtain rfl := (List.cons.inj heq).2
        rw [hsplit]
        simp only [bind, Except.bind, nodeSegments_eq_ok_iff.2 hsegments]
        rfl
      · next hno => exact absurd rfl (hno _)

theorem isEmpty_trimBlanks (cs : List Char) : (trimBlanks cs).isEmpty = true ↔ AllBlank cs := by
  rw [List.isEmpty_iff, trimBlanks_eq_nil_iff]

theorem readParameter_eq_ok_iff {command : String} {cs : List Char} {p : String × Json} :
    readParameter command cs = .ok p ↔ ReadsParameter cs p := by
  constructor
  · intro h
    unfold readParameter at h
    obtain ⟨key, value, hcut⟩ : ∃ key value, cutAtChar '=' cs = (key, value) := ⟨_, _, rfl⟩
    rw [hcut] at h
    dsimp only at h
    split at h
    · cases h
    next hname =>
    rw [isEmpty_trimBlanks] at hname
    cases value with
    | none =>
      obtain ⟨rfl, hequals⟩ := not_mem_of_cutAtChar hcut
      cases h
      exact .switch hequals hname
    | some value =>
      obtain ⟨rfl, hequals⟩ := eq_append_of_cutAtChar hcut
      dsimp only at h
      cases hvalue : readValue value with
      | error e =>
        rw [hvalue] at h
        cases h
      | ok v =>
        rw [hvalue] at h
        cases h
        exact .assigned hequals hname hvalue
  · intro h
    unfold readParameter
    cases h with
    | switch hequals hname => simp only [cutAtChar_of_not_mem hequals, isEmpty_trimBlanks, hname, if_false]
    | assigned hequals hname hvalue =>
      simp only [cutAtChar_append hequals, isEmpty_trimBlanks, hname, if_false, hvalue]
      rfl

theorem readParameters_eq_ok_iff {command : String} {parts : List (List Char)}
    {parameters : List (String × Json)} :
    readParameters command parts = .ok parameters ↔ List.Forall₂ ReadsParameter parts parameters := by
  induction parts generalizing parameters with
  | nil =>
    rw [List.forall₂_nil_left_iff]
    simp [readParameters, eq_comm]
  | cons part parts ih =>
    rw [List.forall₂_cons_left_iff]
    constructor
    · intro h
      obtain ⟨parameter, hparameter, h⟩ := eq_ok_of_bind h
      obtain ⟨others, hothers, h⟩ := eq_ok_of_bind h
      cases h
      exact ⟨parameter, others, readParameter_eq_ok_iff.1 hparameter, ih.1 hothers, rfl⟩
    · rintro ⟨parameter, others, hparameter, hothers, rfl⟩
      simp only [readParameters, readParameter_eq_ok_iff.2 hparameter, ih.2 hothers]
      rfl

theorem getLast?_request (name inside : List Char) :
    (name ++ '(' :: (inside ++ [')'])).getLast? = some ')' := by
  rw [← List.cons_append, ← List.append_assoc, List.getLast?_concat]

theorem closing_of_getLast? {name body : List Char}
    (h : (name ++ '(' :: body).getLast? = some ')') : ∃ inside, body = inside ++ [')'] := by
  obtain ⟨before, hbefore⟩ := List.getLast?_eq_some_iff.1 h
  rcases List.eq_nil_or_concat body with rfl | ⟨inside, c, rfl⟩
  · have hlast := List.append_inj_right' hbefore rfl
    cases hlast
  · rw [List.concat_eq_append, ← List.cons_append, ← List.append_assoc] at hbefore
    have hlast := List.append_inj_right' hbefore rfl
    exact ⟨inside, by rw [List.concat_eq_append, hlast]⟩

theorem readRequest_eq_ok_iff {command : String} {cs name : List Char}
    {parameters : List (String × Json)} :
    readRequest command cs = .ok (name, parameters) ↔
      ∃ parts, WritesRequest cs name parts ∧ List.Forall₂ ReadsParameter parts parameters := by
  constructor
  · intro h
    unfold readRequest at h
    split at h
    · next written hcut =>
      obtain ⟨rfl, hopen⟩ := not_mem_of_cutAtChar hcut
      cases h
      exact ⟨[], .bare hopen, .nil⟩
    · next written body hcut =>
      obtain ⟨rfl, hopen⟩ := eq_append_of_cutAtChar hcut
      split at h
      · cases h
      next hlast =>
      have hclosing : (written ++ '(' :: body).getLast? = some ')' := by simpa using hlast
      obtain ⟨inside, rfl⟩ := closing_of_getLast? hclosing
      rw [List.dropLast_concat] at h
      dsimp only at h
      split at h
      · next hblank =>
        rw [isEmpty_trimBlanks] at hblank
        cases h
        exact ⟨[], .empty hopen hblank, .nil⟩
      next hblank =>
      rw [isEmpty_trimBlanks] at hblank
      split at h
      · cases h
      · next parts hsplit =>
        obtain ⟨hne, hjoin, hwhole⟩ := (split_eq_ok_iff (by decide)).1 hsplit
        cases hread : readParameters command parts with
        | error e =>
          rw [hread] at h
          cases h
        | ok others =>
          rw [hread] at h
          cases h
          exact ⟨parts, .parameters hopen hne hjoin.symm hblank hwhole, readParameters_eq_ok_iff.1 hread⟩
  · rintro ⟨parts, hrequest, hparts⟩
    unfold readRequest
    cases hrequest with
    | bare hopen =>
      cases hparts
      rw [cutAtChar_of_not_mem hopen]
    | @empty written inside hopen hblank =>
      cases hparts
      rw [cutAtChar_append hopen]
      simp only [getLast?_request, bne_self_eq_false, Bool.false_eq_true, if_false,
        List.dropLast_concat, isEmpty_trimBlanks, hblank, if_true]
    | @parameters written inside _ hopen hne hinside hblank hwhole =>
      have hsplit := (split_eq_ok_iff (by decide)).2 ⟨hne, hinside.symm, hwhole⟩
      rw [cutAtChar_append hopen]
      simp only [getLast?_request, bne_self_eq_false, Bool.false_eq_true, if_false,
        List.dropLast_concat, isEmpty_trimBlanks, hblank, hsplit, readParameters_eq_ok_iff.2 hparts]
      rfl

theorem read_of_cut {command : String} {address request : List Char}
    (htext : trimBlanks command.toList = address ++ ':' :: request) (hwhole : Whole ':' address)
    (hclosed : Nesting.outside.after request = .outside) :
    read command = (match readAddress command address with
      | .error problem => .error (.deploy (.command problem))
      | .ok a => do
        let (name, parameters) ← readRequest command (trimBlanks request)
        if name.isEmpty then .error (.deploy (.command (.missingName command)))
        else pure (Members.setAll (Operation.make (String.ofList name) a []) parameters)) := by
  obtain ⟨others, hothers⟩ := split_closed (show isDelimiter ':' = false by decide) hclosed
  obtain ⟨hne, hjoin, hwholes⟩ := (split_eq_ok_iff (by decide)).1 hothers
  obtain ⟨next, more, rfl⟩ := List.exists_cons_of_ne_nil hne
  have hall : ∀ part ∈ address :: next :: more, Whole ':' part := by
    intro part hpart
    rcases List.mem_cons.1 hpart with rfl | hpart
    · exact hwhole
    · exact hwholes part hpart
  have hcut : joinWith ':' (address :: next :: more) = address ++ ':' :: request := by
    rw [← hjoin]
    rfl
  have hsplit : split ':' (address ++ ':' :: request) = .ok (address :: next :: more) :=
    (split_eq_ok_iff (by decide)).2 ⟨by simp, hcut, hall⟩
  have hdrop : (address ++ ':' :: request).drop (address.length + 1) = request := by
    rw [← List.drop_drop, List.drop_left, List.drop_one, List.tail_cons]
  unfold read
  cases haddress : readAddress command address with
  | error problem => simp only [htext, hsplit, haddress]
  | ok a => simp only [htext, hsplit, hdrop, haddress]

theorem cut_of_read {command : String} {op : Operation} (h : read command = .ok op) :
    ∃ address request, trimBlanks command.toList = address ++ ':' :: request ∧ Whole ':' address ∧
      Nesting.outside.after request = .outside := by
  unfold read at h
  dsimp only at h
  split at h
  · cases h
  · cases h
  · cases h
  · next first others hsome hsplit =>
    obtain ⟨-, hjoin, hwholes⟩ := (split_eq_ok_iff (by decide)).1 hsplit
    cases others with
    | nil => exact (hsome rfl).elim
    | cons next more =>
      have hrest : scan ':' .outside (joinWith ':' (next :: more)) = (next :: more, .outside) :=
        scan_wholes (by decide) (List.cons_ne_nil next more)
          fun part hpart => hwholes part (by simp [hpart])
      refine ⟨first, joinWith ':' (next :: more), hjoin.symm, hwholes first (by simp), ?_⟩
      rw [← scan_snd ':', hrest]

theorem read_eq_ok_iff {command : String} {op : Operation} :
    read command = .ok op ↔ ∃ f : Form, f.Of command ∧ op = f.operation := by
  constructor
  · intro h
    obtain ⟨address, request, htext, hwhole, hclosed⟩ := cut_of_read h
    rw [read_of_cut htext hwhole hclosed] at h
    split at h
    · cases h
    · next a haddress =>
      obtain ⟨nodes, hnodes, hsegments⟩ := readAddress_eq_ok_iff.1 haddress
      obtain ⟨⟨name, parameters⟩, hrequest, h⟩ := eq_ok_of_bind h
      obtain ⟨parts, hparts, hparameters⟩ := readRequest_eq_ok_iff.1 hrequest
      dsimp only at h
      split at h
      · cases h
      · next hname =>
        cases h
        exact ⟨⟨address, request, nodes, a.segments, name, parts, parameters⟩,
          ⟨htext, hwhole, hclosed, hnodes, hsegments, hparts, by simpa using hname, hparameters⟩, rfl⟩
  · rintro ⟨f, h, rfl⟩
    have haddress : readAddress command f.address = .ok ⟨f.segments⟩ :=
      readAddress_eq_ok_iff.2 ⟨f.nodes, h.nodes, h.segments⟩
    have hrequest : readRequest command (trimBlanks f.request) = .ok (f.name, f.parameters) :=
      readRequest_eq_ok_iff.2 ⟨f.parts, h.request, h.parameters⟩
    rw [read_of_cut h.text h.whole h.closed, haddress]
    simp only [hrequest, bind, Except.bind, List.isEmpty_iff, h.named, if_false]
    rfl

/-- A fault that is met in reading the text of a command: a problem, or a value of a parameter in which
reading comes to an integer of too many digits. -/
inductive Refusal (cs : List Char) : Fault → Prop
  | problem (problem : CommandProblem) : Refusal cs (.deploy (.command problem))
  | overlong {n : Nat} {value : List Char} (hvalue : value <:+: cs) (h : Overlong n .value value) :
      Refusal cs (.oversizeReading n)

theorem Refusal.of_part {cs rest : List Char} {e : Fault} (h : Refusal rest e)
    (hrest : rest <:+: cs) : Refusal cs e := by
  cases h with
  | problem problem => exact .problem problem
  | overlong hvalue h => exact .overlong (hvalue.trans hrest) h

theorem refused_of_part {α : Type} {cs rest : List Char} {r : Except Fault α}
    (h : Fails (Refusal rest) r) (hrest : rest <:+: cs) : Fails (Refusal cs) r :=
  fun e he => (h e he).of_part hrest

theorem trimBlanks_part (cs : List Char) : trimBlanks cs <:+: cs := by
  obtain ⟨before, after, -, -, heq⟩ := trimBlanks_padded cs
  exact ⟨before, after, by rw [List.append_assoc, ← heq]⟩

theorem part_behind (before : List Char) (c : Char) (rest : List Char) : rest <:+: before ++ c :: rest :=
  ((List.suffix_cons _ _).trans (List.suffix_append _ _)).isInfix

theorem part_of_joinWith {sep : Char} {parts : List (List Char)} {part : List Char}
    (h : part ∈ parts) : part <:+: joinWith sep parts := by
  induction parts with
  | nil => cases h
  | cons first parts ih =>
    cases parts with
    | nil =>
      rw [List.mem_singleton.1 h]
      exact List.infix_refl _
    | cons next parts =>
      have hjoin : joinWith sep (first :: next :: parts) =
          first ++ sep :: joinWith sep (next :: parts) := rfl
      rw [hjoin]
      rcases List.mem_cons.1 h with rfl | h
      · exact (List.prefix_append _ _).isInfix
      · exact (ih h).trans (part_behind _ _ _)

theorem refused_readValue (cs : List Char) : Fails (Refusal cs) (readValue cs) := by
  unfold readValue
  split
  · exact fails_ok _
  · exact fails_ok _
  · next hread =>
    exact fails_error (.overlong (trimBlanks_part cs) (read_eq_oversize_iff.1 hread))

theorem refused_readParameter (command : String) (cs : List Char) :
    Fails (Refusal cs) (readParameter command cs) := by
  obtain ⟨key, value, hcut⟩ : ∃ key value, cutAtChar '=' cs = (key, value) := ⟨_, _, rfl⟩
  unfold readParameter
  rw [hcut]
  dsimp only
  split
  · exact fails_error (.problem _)
  cases value with
  | none => exact fails_ok _
  | some value =>
    obtain ⟨rfl, -⟩ := eq_append_of_cutAtChar hcut
    exact refused_of_part ((refused_readValue value).map _) (part_behind _ _ _)

theorem refused_readParameters (command : String) {cs : List Char} {parts : List (List Char)}
    (h : ∀ part ∈ parts, part <:+: cs) : Fails (Refusal cs) (readParameters command parts) := by
  induction parts with
  | nil => exact fails_ok _
  | cons part parts ih =>
    refine (refused_of_part (refused_readParameter command part) (h part (by simp))).bind fun p => ?_
    exact (ih fun q hq => h q (by simp [hq])).bind fun ps => fails_ok _

theorem refused_readRequest (command : String) (cs : List Char) :
    Fails (Refusal cs) (readRequest command cs) := by
  unfold readRequest
  split
  · exact fails_ok _
  · next name body hcut =>
    obtain ⟨rfl, -⟩ := eq_append_of_cutAtChar hcut
    split
    · exact fails_error (.problem _)
    dsimp only
    split
    · exact fails_ok _
    split
    · exact fails_error (.problem _)
    · next parts hsplit =>
      obtain ⟨-, hjoin, -⟩ := (split_eq_ok_iff (by decide)).1 hsplit
      have hinside : trimBlanks body.dropLast <:+: name ++ '(' :: body :=
        (trimBlanks_part _).trans (( List.dropLast_prefix body).isInfix.trans (part_behind _ _ _))
      have hparts : ∀ part ∈ parts, part <:+: name ++ '(' :: body := by
        intro part hpart
        have hjoined : part <:+: joinWith ',' parts := part_of_joinWith hpart
        rw [hjoin] at hjoined
        exact hjoined.trans hinside
      exact (refused_readParameters command hparts).map _

theorem refused_read (command : String) : Fails (Refusal command.toList) (read command) := by
  unfold read
  dsimp only
  split
  · exact fails_error (.problem _)
  · exact fails_error (.problem _)
  · exact fails_error (.problem _)
  · next first others hsome hsplit =>
    split
    · exact fails_error (.problem _)
    · have hrequest : trimBlanks ((trimBlanks command.toList).drop (first.length + 1)) <:+:
          command.toList :=
        (trimBlanks_part _).trans ((List.drop_suffix _ _).isInfix.trans (trimBlanks_part _))
      refine (refused_of_part (refused_readRequest command _) hrequest).bind fun p => ?_
      split
      · exact fails_error (.problem _)
      · exact fails_ok _

/-- The parenthesis behind `before` stands outside quotes, and of all brackets behind it the one after
`inside` is the first to close it. -/
def Encloses (before inside : List Char) : Prop :=
  (Nesting.outside.after before).quoted = false ∧
  (∀ p, p <+: inside → (Nesting.outside.after before).depth <
    (Nesting.outside.after (before ++ '(' :: p)).depth) ∧
  Nesting.outside.after (before ++ '(' :: (inside ++ [')'])) = Nesting.outside.after before

theorem encloses_iff {before inside : List Char}
    (hclosed : Nesting.outside.after inside = .outside) : Encloses before inside ↔
      (Nesting.outside.after before).quoted = false ∧
        ∀ p, p <+: inside → 0 ≤ (Nesting.outside.after p).depth := by
  refine and_congr_right fun hbefore => ?_
  obtain ⟨depth, hn⟩ : ∃ depth, Nesting.outside.after before = ⟨depth, false⟩ :=
    ⟨_, by rw [← hbefore]⟩
  -- behind the parenthesis the scan runs as it would from the start, but deeper
  have hbehind (p : List Char) : Nesting.outside.after (before ++ '(' :: p) =
      (Nesting.outside.after p).deeper (depth + 1) := by
    have hstep : Nesting.step ⟨depth, false⟩ '(' = Nesting.outside.deeper (depth + 1) := by
      simp [Nesting.step, Nesting.outside, Nesting.deeper, isOpening]
    rw [Nesting.after_append hbefore, hn, Nesting.after_cons_unquoted rfl, hstep,
      Nesting.after_deeper]
  have hend : Nesting.outside.after (before ++ '(' :: (inside ++ [')'])) = ⟨depth, false⟩ := by
    have hlast : Nesting.outside.after (inside ++ [')']) = ⟨-1, false⟩ := by
      rw [Nesting.after_append (by rw [hclosed]; rfl), hclosed]
      rfl
    rw [hbehind, hlast]
    simp only [Nesting.deeper, Nesting.mk.injEq, and_true]
    omega
  rw [hn, hend]
  simp only [and_true]
  refine forall_congr' fun p => imp_congr_right fun _ => ?_
  rw [hbehind]
  simp only [Nesting.deeper]
  omega

theorem after_padded {cs : List Char} (h : Nesting.outside.after (trimBlanks cs) = .outside) :
    Nesting.outside.after cs = .outside := by
  obtain ⟨before, after, hbefore, hafter, heq⟩ := trimBlanks_padded cs
  have hstart := Nesting.after_blanks hbefore (n := .outside) rfl
  have hend := Nesting.after_blanks hafter (n := .outside) rfl
  rw [heq, Nesting.after_append (by rw [hstart]; rfl), hstart,
    Nesting.after_append (by rw [h]; rfl), h, hend]

theorem WritesRequest.closed {text name before behind : List Char} {parts : List (List Char)}
    (h : WritesRequest text name parts) (hopen : '(' ∉ before) (htext : text = before ++ '(' :: behind) :
    ∃ inside, behind = inside ++ [')'] ∧ Nesting.outside.after inside = .outside := by
  -- the text is cut at its first parenthesis only
  have hcut {name inside : List Char} (hname : '(' ∉ name)
      (heq : name ++ '(' :: inside = before ++ '(' :: behind) : behind = inside := by
    have hsame := congrArg (cutAtChar '(') heq
    rw [cutAtChar_append hname, cutAtChar_append hopen] at hsame
    exact (Option.some.inj (Prod.mk.inj hsame).2).symm
  cases h with
  | bare hname => exact absurd (by simp [htext]) hname
  | empty hname hinside => exact ⟨_, hcut hname htext, Nesting.after_blanks hinside rfl⟩
  | parameters hname hne hinside hblank hwhole =>
    refine ⟨_, hcut hname htext, after_padded ?_⟩
    rw [hinside, ← scan_snd ',', scan_wholes (by decide) hne hwhole]

/-- Exactly the texts of this form are read. Then each segment has a value, and a key unless blanks
alone are written for it; the last character is a parenthesis if there is an opening one, and it closes
that one first exactly when the opening one stands outside quotes and no bracket in between closes
more than was opened there. Any other text is refused. -/
theorem read_grammar (command : String) :
    (∀ op, read command = .ok op ↔ ∃ f : Form, f.Of command ∧ op = f.operation) ∧
    (∀ f : Form, f.Of command →
      List.Forall₂ (fun node segment => ∃ key value, node = key ++ '=' :: value ∧ '=' ∉ key ∧
        key ≠ [] ∧ segment.2 ≠ "" ∧ (segment.1 = "" ↔ AllBlank key)) f.nodes f.segments ∧
      ∀ before behind, '(' ∉ before → trimBlanks f.request = before ++ '(' :: behind →
        ∃ inside, behind = inside ++ [')'] ∧ Nesting.outside.after inside = .outside ∧
          (Encloses before inside ↔ (Nesting.outside.after before).quoted = false ∧
            ∀ p, p <+: inside → 0 ≤ (Nesting.outside.after p).depth)) ∧
    ∀ e, read command = .error e → Refusal command.toList e := by
  refine ⟨fun op => read_eq_ok_iff, fun f h => ⟨?_, ?_⟩, fun e => refused_read command e⟩
  · refine h.segments.imp ?_
    rintro node segment ⟨hkey, hequals, hvalue⟩
    refine ⟨_, _, rfl, hequals, hkey, by simpa using hvalue, ?_⟩
    rw [← trimBlanks_eq_nil_iff]
    simp
  · intro before behind hopen htext
    obtain ⟨inside, hinside, hclosed⟩ := h.request.closed hopen htext
    exact ⟨inside, hinside, hclosed, encloses_iff hclosed⟩

def reopened : Form where
  address := []
  request := "op(a=1)(b=2)".toList
  nodes := []
  segments := []
  name := "op".toList
  parts := ["a=1)(b=2".toList]
  parameters := [("a", .str "1)(b=2")]

theorem not_allBlank_cons {c : Char} (h : isBlank c = false) (cs : List Char) : ¬AllBlank (c :: cs) := by
  intro hall
  have hc := hall c (by simp)
  rw [h] at hc
  cases hc

theorem reopened_of : reopened.Of ":op(a=1)(b=2)" where
  text := by decide
  whole := whole_of_not_mem rfl (by decide)
  closed := by decide
  nodes := .empty
  segments := .nil
  request := by
    have hpart : ∀ part ∈ reopened.parts, Whole ',' part :=
      List.forall_mem_singleton.2 (whole_of_not_mem (by decide) (by decide))
    exact @WritesRequest.parameters "op".toList "a=1)(b=2".toList _ (by decide) (by decide) (by decide)
      (not_allBlank_cons (by decide) _) hpart
  named := by decide
  parameters := by
    have hvalue : readValue "1)(b=2".toList = .ok (.str "1)(b=2") := rfl
    exact .cons (@ReadsParameter.assigned ['a'] _ _ (by decide)
      (not_allBlank_cons (by decide) _) hvalue) .nil

/-- The parenthesis is closed by the first of two closing ones. -/
theorem read_grammar_reopened :
    read ":op(a=1)(b=2)" =
      .ok [("operation", .str "op"), ("address", .arr []), ("a", .str "1)(b=2")] ∧
    ¬Encloses "op".toList "a=1)(b=2".toList := by
  refine ⟨((read_grammar _).1 _).2 ⟨reopened, reopened_of, rfl⟩, fun h => ?_⟩
  obtain ⟨inside, hinside, -, hencloses⟩ := ((read_grammar _).2.1 reopened reopened_of).2 "op".toList
    "a=1)(b=2)".toList (by decide) (by decide)
  have hend : "a=1)(b=2)".toList = "a=1)(b=2".toList ++ [')'] := by decide
  obtain rfl := List.append_inj_left' (hend.symm.trans hinside) rfl
  have hdepth := (hencloses.1 h).2 "a=1)".toList ⟨"(b=2".toList, by decide⟩
  exact absurd hdepth (by decide)

end Command

end ServerDeploy
