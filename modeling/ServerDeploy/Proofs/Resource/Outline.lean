import Mathlib.Data.List.Forall2
import Mathlib.Data.List.Induction
import ServerDeploy.Proofs.Resource.Building

/-! What the steps of a composite are planned for: to remove what stands at the top, to add a resource
at its place in the tree, or to enable it. Properties are written into the operation that adds the
resource, and a key can name the operation and the address themselves. A step does what is planned
exactly when the last property that writes to either of them gives it the planned value again. -/

namespace ServerDeploy

namespace Operation

/-- The key names the member, or something within it. -/
def writesTo (name key : String) : Bool :=
  (propertyPath? key).any fun path => path.head? == some name

def lastFor? (name : String) (properties : List (String × RawValue)) : Option (String × RawValue) :=
  properties.reverse.find? fun p => writesTo name p.1

def meaning? (raw : RawValue) : Option Json :=
  (PropertyValue.ofRaw raw).toOption.bind fun v => v.resolve.toOption

/-- Properties that leave the value of a member: if any writes to the member, the last that does so
writes this value. -/
def Leaves (name : String) (value : Json) (properties : List (String × RawValue)) : Prop :=
  ∀ p, lastFor? name properties = some p →
    propertyPath? p.1 = some [name] ∧ meaning? p.2 = some value

variable {op op' : Operation} {name key : String} {value : Json} {raw : RawValue}
  {properties : List (String × RawValue)}

theorem writesTo_eq_true : writesTo name key = true ↔
    ∃ rest, propertyPath? key = some (name :: rest) := by
  unfold writesTo
  cases propertyPath? key with
  | none => simp
  | some path =>
    cases path with
    | nil => simp
    | cons first rest => simp

theorem lastFor?_concat_of_writes (h : writesTo name key = true) :
    lastFor? name (properties ++ [(key, raw)]) = some (key, raw) := by
  simp [lastFor?, h]

theorem lastFor?_concat_of_not_writes (h : writesTo name key = false) :
    lastFor? name (properties ++ [(key, raw)]) = lastFor? name properties := by
  simp [lastFor?, h]

theorem leaves_nil (name : String) (value : Json) : Leaves name value [] := nofun

theorem leaves_of_unreserved (hname : name = nameKey ∨ name = addressKey)
    (hkeys : ∀ p ∈ properties, Unreserved p.1) (value : Json) : Leaves name value properties := by
  intro p hp
  have hmem : p ∈ properties := List.mem_reverse.1 (List.mem_of_find?_eq_some hp)
  have hwrites : writesTo name p.1 = true :=
    List.find?_some (p := fun p : String × RawValue => writesTo name p.1) hp
  obtain ⟨rest, hpath⟩ := writesTo_eq_true.1 hwrites
  obtain ⟨hnot, hnot'⟩ := hkeys p hmem _ hpath
  rcases hname with rfl | rfl
  · exact absurd rfl hnot
  · exact absurd rfl hnot'

theorem get?_setPath_within (value : Json) (name next : String) (rest : List String)
    (members : Members) :
    ∃ inner, (setPath value (name :: next :: rest) members).get? name = some (.obj inner) :=
  ⟨_, Members.get?_set_self name _ members⟩

theorem eq_of_setProperty (h : setProperty op key raw = .ok op') : ∃ path value,
    propertyPath? key = some path ∧ meaning? raw = some value ∧ op' = setPath value path op := by
  unfold setProperty at h
  split at h
  · cases h
  · next path hpath =>
    split at h
    · cases h
    · next v hv =>
      split at h
      · cases h
      · next value hvalue =>
        cases h
        exact ⟨path, value, hpath, by simp [meaning?, hv, hvalue, Except.toOption], rfl⟩

theorem exists_of_setProperties_concat
    (h : setProperties op (properties ++ [(key, raw)]) = .ok op') :
    ∃ op₁, setProperties op properties = .ok op₁ ∧ setProperty op₁ key raw = .ok op' := by
  induction properties generalizing op with
  | nil =>
    refine ⟨op, rfl, ?_⟩
    simp only [List.nil_append, setProperties] at h
    split at h
    · cases h
    · next op₁ hop₁ =>
      cases h
      exact hop₁
  | cons property rest ih =>
    obtain ⟨k, r⟩ := property
    simp only [List.cons_append, setProperties] at h ⊢
    split at h
    · cases h
    · exact ih h

/-- A member whose value is no object keeps it exactly when the properties leave it. -/
theorem get?_setProperties (hvalue : ∀ inner, value ≠ .obj inner) (hop : op.get? name = some value)
    (h : setProperties op properties = .ok op') :
    op'.get? name = some value ↔ Leaves name value properties := by
  induction properties using List.reverseRecOn generalizing op' with
  | nil =>
    cases h
    exact iff_of_true hop (leaves_nil name value)
  | append_singleton properties property ih =>
    obtain ⟨key, raw⟩ := property
    obtain ⟨op₁, hop₁, hset⟩ := exists_of_setProperties_concat h
    obtain ⟨path, written, hpath, hmeaning, rfl⟩ := eq_of_setProperty hset
    cases hwrites : writesTo name key with
    | false =>
      -- the property goes elsewhere, and those before it decide
      have hhead : path.head? ≠ some name := by
        simpa [writesTo, hpath] using hwrites
      rw [get?_setPath hhead, ih hop₁]
      unfold Leaves
      rw [lastFor?_concat_of_not_writes hwrites]
    | true =>
      obtain ⟨rest, hpath'⟩ := writesTo_eq_true.1 hwrites
      obtain rfl : path = name :: rest := Option.some.inj (hpath.symm.trans hpath')
      unfold Leaves
      rw [lastFor?_concat_of_writes hwrites]
      simp only [Option.some.injEq, forall_eq', hpath, hmeaning]
      cases rest with
      | nil => simp [setPath]
      | cons next rest =>
        obtain ⟨inner, hinner⟩ := get?_setPath_within written name next rest op₁
        rw [hinner]
        simp [Ne.symm (hvalue inner)]

end Operation

open Address Operation

namespace Resource

/-- What a step is planned for, and the properties that are written into it. -/
structure Part where
  kind : String
  address : Address
  properties : List (String × RawValue)

namespace Part

/-- The properties leave the name and the address of the operation as they are planned. -/
def Kept (part : Part) : Prop :=
  Leaves nameKey (.str part.kind) part.properties ∧
    Leaves addressKey part.address.model part.properties

/-- The step does what is planned. -/
def Done (part : Part) (step : Json) : Prop :=
  ∃ op : Operation, step = .obj op ∧ op.Heads part.kind part.address

/-- A step of the part, which does what is planned exactly when the properties of the part let it. -/
def Makes (part : Part) (step : Json) : Prop :=
  (∃ op : Operation, step = .obj op) ∧ (part.Done step ↔ part.Kept)

end Part

def enableParts (address : Address) (enable : Bool) : List Part :=
  if enable then [⟨"enable", address, []⟩] else []

def removalParts (address : Address) (isThere : Bool) : List Part :=
  if isThere then [⟨"remove", address, []⟩] else []

mutual

/-- The parts of a tree in the order of their steps. -/
def outline? (profile : Option String) (segments : Segments) : Resource → Option (List Part)
  | .mk own properties enable addIfAbsent children beforeAdd afterAdd =>
    let r : Resource := .mk own properties enable addIfAbsent children beforeAdd afterAdd
    let address := inProfile profile segments
    (outlineAll? profile segments children).map fun parts =>
      ⟨"add", address, rawProperties r⟩ :: parts ++ enableParts address enable

def outlineAll? (profile : Option String) (segments : Segments) :
    List Resource → Option (List Part)
  | [] => some []
  | child :: rest =>
    (below? segments child.address).bind fun inner =>
      (outline? profile inner child).bind fun parts =>
        (outlineAll? profile segments rest).map fun more => parts ++ more

end

/-- A part that adds or enables a resource at the place or below it, with properties of one of the
nodes. -/
structure Part.Within (profile : Option String) (segments : Segments) (nodes : List Resource)
    (part : Part) : Prop where
  kind : part.kind = "add" ∨ part.kind = "enable"
  address : ∃ inner, segments <+: inner ∧ part.address = inProfile profile inner
  properties : part.properties = [] ∨ ∃ node ∈ nodes, part.properties = rawProperties node

theorem Part.Within.mono {profile : Option String} {segments inner : Segments}
    {nodes more : List Resource} {part : Part} (h : part.Within profile inner nodes)
    (hin : segments <+: inner) (hnodes : nodes ⊆ more) : part.Within profile segments more where
  kind := h.kind
  address := by
    obtain ⟨own, hown, haddress⟩ := h.address
    exact ⟨own, hin.trans hown, haddress⟩
  properties := h.properties.imp_right fun ⟨node, hnode, hp⟩ => ⟨node, hnodes hnode, hp⟩

theorem enableParts_within (profile : Option String) (segments : Segments) (nodes : List Resource)
    (enable : Bool) : ∀ part ∈ enableParts (inProfile profile segments) enable,
      part.Within profile segments nodes := by
  cases enable with
  | false => exact nofun
  | true =>
    intro part hpart
    obtain rfl := List.mem_singleton.1 hpart
    exact ⟨.inr rfl, ⟨segments, List.prefix_refl _, rfl⟩, .inl rfl⟩

mutual

theorem outline_within (profile : Option String) : ∀ (r : Resource) {segments : Segments}
    {parts : List Part}, outline? profile segments r = some parts →
      ∀ part ∈ parts, part.Within profile segments r.nodes
  | .mk own properties enable addIfAbsent children beforeAdd afterAdd, segments, parts, h => by
    unfold outline? at h
    obtain ⟨inner, hinner, rfl⟩ := Option.map_eq_some_iff.1 h
    intro part hpart
    rw [List.cons_append] at hpart
    rcases List.mem_cons.1 hpart with rfl | hpart
    · exact ⟨.inl rfl, ⟨segments, List.prefix_refl _, rfl⟩, .inr ⟨_, List.mem_cons_self, rfl⟩⟩
    · rcases List.mem_append.1 hpart with hpart | hpart
      · exact (outlineAll_within profile children hinner part hpart).mono (List.prefix_refl _)
          (List.subset_cons_self _ _)
      · exact enableParts_within profile segments _ enable part hpart

theorem outlineAll_within (profile : Option String) : ∀ (children : List Resource)
    {segments : Segments} {parts : List Part}, outlineAll? profile segments children = some parts →
      ∀ part ∈ parts, part.Within profile segments (nodesOfAll children)
  | [], segments, parts, h => by
    cases h
    exact nofun
  | child :: rest, segments, parts, h => by
    unfold outlineAll? at h
    obtain ⟨inner, hinner, h⟩ := Option.bind_eq_some_iff.1 h
    obtain ⟨first, hfirst, h⟩ := Option.bind_eq_some_iff.1 h
    obtain ⟨more, hmore, rfl⟩ := Option.map_eq_some_iff.1 h
    intro part hpart
    rcases List.mem_append.1 hpart with hpart | hpart
    · exact (outline_within profile child hfirst part hpart).mono (prefix_of_below hinner)
        (List.subset_append_left _ _)
    · exact (outlineAll_within profile rest hmore part hpart).mono (List.prefix_refl _)
        (List.subset_append_right _ _)

end

theorem makes_add {r : Resource} {address : Address} {step : Json}
    (h : addStep? address r = some step) : Part.Makes ⟨"add", address, rawProperties r⟩ step := by
  obtain ⟨op, hadd, rfl⟩ := eq_of_addStep? h
  have hheads := heads_add address.segments
  have hname := get?_setProperties (by simp) hheads.name hadd
  have haddress := get?_setProperties (by simp [AddressOf.model]) hheads.address hadd
  refine ⟨⟨op, rfl⟩, fun ⟨op', hop', hdone⟩ => ?_, fun hkept => ?_⟩
  · cases hop'
    exact ⟨hname.1 hdone.name, haddress.1 hdone.address⟩
  · exact ⟨op, rfl, hname.2 hkept.1, haddress.2 hkept.2⟩

theorem makes_without_properties {kind : String} {address : Address} {op : Operation}
    (h : op.Heads kind address) : Part.Makes ⟨kind, address, []⟩ (.obj op) :=
  ⟨⟨op, rfl⟩, iff_of_true ⟨op, rfl, h⟩ ⟨leaves_nil _ _, leaves_nil _ _⟩⟩

theorem enable_made (address : Address) (enable : Bool) :
    List.Forall₂ Part.Makes (enableParts address enable) (enableSteps address enable) := by
  cases enable with
  | false => exact .nil
  | true => exact .cons (makes_without_properties (heads_enable address.segments)) .nil

theorem removal_made (address : Address) (isThere : Bool) :
    List.Forall₂ Part.Makes (removalParts address isThere) (removalSteps address isThere) := by
  cases isThere with
  | false => exact .nil
  | true => exact .cons (makes_without_properties ⟨rfl, rfl⟩) .nil

mutual

/-- An expansion follows the outline step by step. -/
theorem expand_outlined (profile : Option String) : ∀ (r : Resource) {segments : Segments}
    {steps : List Json}, expand? profile segments r = some steps →
      ∃ parts, outline? profile segments r = some parts ∧ List.Forall₂ Part.Makes parts steps
  | .mk own properties enable addIfAbsent children beforeAdd afterAdd, segments, steps, h => by
    unfold expand? at h
    obtain ⟨add, hadd, h⟩ := Option.bind_eq_some_iff.1 h
    obtain ⟨inner, hinner, rfl⟩ := Option.map_eq_some_iff.1 h
    obtain ⟨parts, houtline, hparts⟩ := expandAll_outlined profile children hinner
    refine ⟨_, by rw [outline?, houtline]; rfl, ?_⟩
    exact List.rel_append (.cons (makes_add hadd) hparts) (enable_made _ enable)

theorem expandAll_outlined (profile : Option String) : ∀ (children : List Resource)
    {segments : Segments} {steps : List Json}, expandAll? profile segments children = some steps →
      ∃ parts, outlineAll? profile segments children = some parts ∧
        List.Forall₂ Part.Makes parts steps
  | [], segments, steps, h => by
    cases h
    exact ⟨[], by rw [outlineAll?], .nil⟩
  | child :: rest, segments, steps, h => by
    unfold expandAll? at h
    obtain ⟨inner, hinner, h⟩ := Option.bind_eq_some_iff.1 h
    obtain ⟨first, hfirst, h⟩ := Option.bind_eq_some_iff.1 h
    obtain ⟨more, hmore, rfl⟩ := Option.map_eq_some_iff.1 h
    obtain ⟨parts, houtline, hparts⟩ := expand_outlined profile child hfirst
    obtain ⟨others, hothers, hrest⟩ := expandAll_outlined profile rest hmore
    refine ⟨parts ++ others, ?_, List.rel_append hparts hrest⟩
    rw [outlineAll?, hinner, Option.bind_some, houtline, Option.bind_some, hothers]
    rfl

end

theorem kept_of_unreserved {profile : Option String} {segments : Segments} {nodes : List Resource}
    {part : Part} (h : part.Within profile segments nodes)
    (hkeys : ∀ node ∈ nodes, ∀ p ∈ node.properties, Unreserved p.1) : part.Kept := by
  have hproperties : ∀ p ∈ part.properties, Unreserved p.1 := by
    rcases h.properties with hnone | ⟨node, hnode, hp⟩
    · rw [hnone]
      exact nofun
    · rw [hp]
      exact unreserved_rawProperties (hkeys node hnode)
  exact ⟨leaves_of_unreserved (.inl rfl) hproperties _,
    leaves_of_unreserved (.inr rfl) hproperties _⟩

/-- The operation removes, adds or enables a resource, at the address or below it. -/
def Framed (address : Address) (step : Json) : Prop :=
  ∃ (op : Operation) (kind : String) (target : Address), step = .obj op ∧ op.Heads kind target ∧
    (kind = "remove" ∨ kind = "add" ∨ kind = "enable") ∧ address.segments <+: target.segments

theorem makes_done {parts : List Part} {steps : List Json}
    (h : List.Forall₂ Part.Makes parts steps) :
    List.Forall₂ Part.Done parts steps ↔ ∀ part ∈ parts, part.Kept := by
  induction h with
  | nil => simp
  | cons hmakes _ ih => simp [ih, hmakes.2]

theorem forall_framed {address : Address} {parts : List Part} {steps : List Json}
    (h : List.Forall₂ Part.Done parts steps)
    (hparts : ∀ part ∈ parts, (part.kind = "remove" ∨ part.kind = "add" ∨ part.kind = "enable") ∧
      address.segments <+: part.address.segments) : ∀ step ∈ steps, Framed address step := by
  induction h with
  | nil => exact nofun
  | @cons part step parts steps hdone _ ih =>
    intro other hother
    rcases List.mem_cons.1 hother with rfl | hother
    · obtain ⟨op, rfl, hheads⟩ := hdone
      obtain ⟨hkind, haddress⟩ := hparts part List.mem_cons_self
      exact ⟨op, part.kind, part.address, rfl, hheads, hkind, haddress⟩
    · exact ih (fun p hp => hparts p (.tail _ hp)) other hother

theorem removalParts_framed {address : Address} {isThere : Bool} : ∀ part ∈ removalParts address isThere,
    part = ⟨"remove", address, []⟩ := by
  cases isThere with
  | false => exact nofun
  | true => exact fun part hpart => List.mem_singleton.1 hpart

variable {σ : Type} [Endpoint σ]

/-- A composite has a step for each part of the tree, after the removal of what is replaced. All parts
are planned at the place of the tree or below it, and all steps do what is planned exactly when the
properties of each part let them. They do where no key names the operation or the address. -/
theorem compose_outlined {client : Nat} {r : Resource} {base profile : Option String} {force : Bool}
    {w w' : World σ} {composed : Composed} {c : Composite}
    (h : compose client r base profile force w = (.ok composed, w'))
    (hc : composed.composite = some c) : ∃ place e nodes,
      place? base r.address = some place ∧ composed.address = inProfile profile place ∧
        Existence.check client composed.address w = (.ok e, w') ∧
        outline? profile place r = some nodes ∧
        let parts := removalParts composed.address e.found ++ nodes
        (∀ part ∈ parts, (part.kind = "remove" ∨ part.kind = "add" ∨ part.kind = "enable") ∧
          composed.address.segments <+: part.address.segments) ∧
        List.Forall₂ Part.Makes parts c.steps ∧
        (List.Forall₂ Part.Done parts c.steps ↔ ∀ part ∈ parts, part.Kept) ∧
        ((∀ part ∈ parts, part.Kept) → ∀ step ∈ c.steps, Framed composed.address step) ∧
        ((∀ node ∈ r.nodes, ∀ p ∈ node.properties, Unreserved p.1) → ∀ part ∈ parts, part.Kept) := by
  obtain ⟨text, place, e, hwrites, hplace, -, hcheck, hknown⟩ := known_of_compose h
  obtain ⟨haddress, -⟩ := composeKnown_ok hwrites hknown
  obtain ⟨expansion, hexpand, rfl⟩ := composeKnown_composite hwrites hknown hc
  obtain ⟨nodes, houtline, hnodes⟩ := expand_outlined profile r hexpand
  have hwithin := outline_within profile r houtline
  have hmakes := List.rel_append (removal_made (inProfile profile place) e.found) hnodes
  have hplaces : ∀ part ∈ removalParts composed.address e.found ++ nodes,
      (part.kind = "remove" ∨ part.kind = "add" ∨ part.kind = "enable") ∧
        composed.address.segments <+: part.address.segments := by
    intro part hpart
    rcases List.mem_append.1 hpart with hremoval | hnode
    · obtain rfl := removalParts_framed part hremoval
      exact ⟨.inl rfl, List.prefix_refl _⟩
    · obtain ⟨hkind, ⟨inner, hin, hinner⟩, -⟩ := hwithin part hnode
      refine ⟨.inr hkind, ?_⟩
      rw [haddress, hinner]
      exact (List.prefix_append_right_inj _).2 hin
  rw [haddress] at hplaces ⊢
  refine ⟨place, e, nodes, hplace, rfl, hcheck, houtline, hplaces, hmakes, makes_done hmakes,
    fun hkept => forall_framed ((makes_done hmakes).2 hkept) hplaces, fun hkeys part hpart => ?_⟩
  rcases List.mem_append.1 hpart with hremoval | hnode
  · obtain rfl := removalParts_framed part hremoval
    exact ⟨leaves_nil _ _, leaves_nil _ _⟩
  · exact kept_of_unreserved (hwithin part hnode) hkeys

def strayAddress : String := "[(\"subsystem\" => \"security\")]"

/-- A logger whose properties are called like the fields of an operation. -/
def stray : Resource :=
  .mk (some "subsystem=logging,logger=a")
    [("operation", .text "remove"), ("address", .literal strayAddress)] false false [] none none

def loggerAbsent : Outcome := [("outcome", .str "success"), ("result", .obj [])]

def loggerPlace : Segments := [("subsystem", "logging")] ++ [("logger", "a")]

def strayStep : Json :=
  .obj [("operation", .str "remove"), ("address", .arr [.obj [("subsystem", .str "security")]])]

theorem expand_stray : expand? none loggerPlace stray = some [strayStep] := by
  have hname : propertyPath? "operation" = some [nameKey] := by decide
  have haddress : propertyPath? "address" = some [addressKey] := by decide
  have hliteral : TypedLiteral.parse strayAddress =
      .ok (.arr [.obj [("subsystem", .str "security")]]) := by cbv
  have hproperties : rawProperties stray =
      [("operation", .value (.text "remove")), ("address", .value (.literal strayAddress))] := rfl
  have hadd : addStep? (inProfile none loggerPlace) stray = some strayStep := by
    simp only [addStep?, Operation.addWith, hproperties, setProperties, Operation.setProperty, hname,
      haddress, PropertyValue.ofRaw, PropertyValue.resolve, hliteral, Except.mapError]
    rfl
  unfold stray at hadd ⊢
  unfold expand?
  dsimp only
  rw [hadd, expandAll?]
  rfl

theorem place_stray : place? none stray.address = some loggerPlace := rfl

theorem not_framed_stray : ¬Framed (inProfile none loggerPlace) strayStep := by
  rintro ⟨op, kind, ⟨target⟩, hop, ⟨-, haddress⟩, -, hin⟩
  cases hop
  -- the step has one segment, and what is planned has at least two
  have hmodel : AddressOf.model (⟨target⟩ : Address) =
      .arr [.obj [("subsystem", .str "security")]] := (Option.some.inj haddress).symm
  have hlength : target.length = 1 := by
    simpa using congrArg List.length (Json.arr.inj hmodel)
  have htwo : 2 ≤ target.length := hin.length_le
  omega

/-- Where no logger is, what becomes of one depends on its tree alone. -/
theorem compose_absent {r : Resource} (h : place? none r.address = some loggerPlace) (rest : Script) :
    ∃ text w', Writes text loggerPlace ∧ compose 0 r none none false
      (World.ready (.answer 200 (.json (.obj loggerAbsent)) :: rest)) =
        (composeKnown r none false text (inProfile none loggerPlace) false, w') ∧
      w'.endpoint = rest ∧ w'.Fresh 0 := by
  obtain ⟨w', hread, hendpoint, hfresh⟩ := Client.execute_fresh (s := rest)
    (Operation.readResource (inProfile none [("subsystem", "logging")]) false)
    (World.ready_fresh (.answer 200 (.json (.obj loggerAbsent)) :: rest : Script)) rfl
    (fun _ => rfl) rfl
  obtain ⟨text, hwrites, hcompose⟩ := compose_eq_known none false h hread (by decide) trivial
  exact ⟨text, w', hwrites, hcompose, hendpoint, hfresh⟩

theorem compose_stray : ∃ w', compose 0 stray none none false
    (World.ready ([.answer 200 (.json (.obj loggerAbsent))] : Script)) =
      (.ok ⟨inProfile none loggerPlace, none, some ⟨true, [strayStep]⟩⟩, w') := by
  obtain ⟨text, w', hwrites, hcompose, -⟩ := compose_absent place_stray []
  have hnew : false = true → stray.addIfAbsent = false ∧ false = true := nofun
  rw [composeKnown_of_expand hwrites hnew expand_stray] at hcompose
  exact ⟨w', hcompose⟩

theorem compose_outlined_stray : ∃ composed c w',
    compose 0 stray none none false
      (World.ready ([.answer 200 (.json (.obj loggerAbsent))] : Script)) = (.ok composed, w') ∧
    composed.composite = some c ∧ c.steps = [strayStep] ∧ ¬Framed composed.address strayStep ∧
    ∃ nodes, outline? none loggerPlace stray = some nodes ∧ ¬∀ part ∈ nodes, part.Kept := by
  obtain ⟨w', hc⟩ := compose_stray
  obtain ⟨place, e, nodes, hplace', -, -, houtline, -, -, -, hframed, -⟩ := compose_outlined hc rfl
  obtain rfl : loggerPlace = place := Option.some.inj (place_stray.symm.trans hplace')
  refine ⟨_, _, w', hc, rfl, rfl, not_framed_stray, nodes, houtline, fun hkept => ?_⟩
  refine not_framed_stray (hframed (fun part hpart => ?_) strayStep (by simp))
  rcases List.mem_append.1 hpart with hremoval | hnode
  · obtain rfl := removalParts_framed part hremoval
    exact ⟨leaves_nil _ _, leaves_nil _ _⟩
  · exact hkept part hnode

end Resource

end ServerDeploy
