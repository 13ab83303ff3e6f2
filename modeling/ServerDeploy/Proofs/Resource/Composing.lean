import ServerDeploy.Proofs.Resource.Expansion
import ServerDeploy.Proofs.Session.Call

/-! Composing a resource. One read of the parent decides whether there is anything to do and whether
something is replaced; the steps are then the expansion of the tree. -/

namespace ServerDeploy

open Address

namespace Existence

def childrenIn (o : Outcome) (kind : String) : Json := (o.result.member? kind).getD .null

/-- Children as a server reports them: none, an object keyed by names, or a list. -/
def Reported : Json → Prop
  | .null | .obj _ | .arr _ => True
  | _ => False

def isKey (name : String) (members : Members) : Bool := members.any fun (key, _) => key == name

/-- An entry of a list of children is a name, or an object keyed by names. -/
def isEntry (name : String) : Json → Bool
  | .obj members => isKey name members
  | entry => entry.text == name

def isListed (name : String) : Json → Bool
  | .obj members => isKey name members
  | .arr entries => entries.any (isEntry name)
  | _ => false

theorem contains_keys (name : String) (members : Members) :
    (members.map (·.1)).contains name = isKey name members := by
  unfold isKey
  induction members with
  | nil => rfl
  | cons m members ih =>
    rw [List.map_cons, List.contains_cons, ih, List.any_cons, BEq.comm]

theorem contains_entryNames (name : String) (entries : List Json) :
    (entryNames entries).contains name = entries.any (isEntry name) := by
  induction entries with
  | nil => rfl
  | cons entry entries ih =>
    rw [List.any_cons, ← ih]
    cases entry with
    | obj members =>
      simp only [entryNames, isEntry]
      rw [← contains_keys, List.contains_eq_any_beq, List.contains_eq_any_beq,
        List.contains_eq_any_beq, List.any_append]
    | _ =>
      simp only [entryNames, isEntry]
      rw [List.contains_cons, BEq.comm]

theorem ofResult_reported {o : Outcome} {kind : String} (h : Reported (childrenIn o kind))
    (name : String) : ∃ count,
      ofResult kind name o.result = .ok ⟨isListed name (childrenIn o kind), count⟩ := by
  have hresult : ofResult kind name o.result =
      if !(childrenIn o kind).isSomething then .ok ⟨false, 0⟩
      else (childNames (childrenIn o kind)).map fun names =>
        ⟨names.contains name, names.length⟩ := rfl
  rw [hresult]
  generalize childrenIn o kind = children at h
  cases children with
  | null => exact ⟨0, rfl⟩
  | obj members =>
    cases members with
    | nil => exact ⟨0, rfl⟩
    | cons m members =>
      refine ⟨((m :: members).map (·.1)).length, ?_⟩
      simp only [Json.isSomething, childNames, Except.map, contains_keys]
      rfl
  | arr entries =>
    cases entries with
    | nil => exact ⟨0, rfl⟩
    | cons entry entries =>
      refine ⟨(entryNames (entry :: entries)).length, ?_⟩
      simp only [Json.isSomething, childNames, Except.map, contains_entryNames]
      rfl
  | _ => exact h.elim

variable {σ : Type} [Endpoint σ]

theorem check_of_read {client : Nat} {profile : Option String} {above : Segments} {kind : String}
    (name : String) {w w' : World σ} {o : Outcome}
    (hread : Client.execute client (.obj (Operation.readResource (inProfile profile above) false)) w =
      (.ok o, w'))
    (hsuccess : o.isSuccessful = true) (hchildren : Reported (childrenIn o kind)) : ∃ count,
      check client (inProfile profile (above ++ [(kind, name)])) w =
        (.ok ⟨isListed name (childrenIn o kind), count⟩, w') := by
  obtain ⟨count, hcount⟩ := ofResult_reported hchildren name
  refine ⟨count, ?_⟩
  unfold check
  simp only [child?_inProfile, parent?_inProfile]
  rw [Run.bind_of_ok hread]
  simp [hsuccess, hcount]

end Existence

namespace Resource

def removalSteps (address : Address) (isThere : Bool) : List Json :=
  if isThere then [.obj (Operation.remove address true)] else []

theorem removal_appends (address : Address) (isThere : Bool) :
    Appends .empty (some (removalSteps address isThere))
      (if isThere then Composite.empty.addStep (.obj (Operation.remove address true))
        else .ok .empty) := by
  cases isThere with
  | false => exact appends_nil .empty
  | true => exact addStep_appends .empty (Operation.remove address true)

theorem composeKnown_expanded (r : Resource) (profile : Option String) (force : Bool) {text : String}
    {segments : Segments} {isThere : Bool} (hwrites : Writes text segments)
    (hnew : isThere = true → r.addIfAbsent = false ∧ force = true) :
    match expand? profile segments r with
    | some steps =>
      composeKnown r profile force text (inProfile profile segments) isThere =
        .ok ⟨inProfile profile segments, profile,
          some ⟨true, removalSteps (inProfile profile segments) isThere ++ steps⟩⟩
    | none => ∃ e, composeKnown r profile force text (inProfile profile segments) isThere = .error e ∧
        NotExists e := by
  have hknown : composeKnown r profile force text (inProfile profile segments) isThere =
      ((if isThere then
          Composite.empty.addStep (.obj (Operation.remove (inProfile profile segments) true))
        else .ok .empty) >>= fun c => appendNode profile c text (inProfile profile segments) r) >>=
      fun c => pure ⟨inProfile profile segments, profile, some c⟩ := by
    unfold composeKnown
    cases isThere with
    | false => rfl
    | true => simp [hnew rfl]
  have all := (removal_appends (inProfile profile segments) isThere).bind fun c =>
    appendNode_appends profile hwrites c r
  rw [hknown]
  cases hx : expand? profile segments r with
  | some steps =>
    rw [hx] at all
    simp only [Appends, Option.bind_some, Option.map_some] at all
    rw [all]
    rfl
  | none =>
    rw [hx] at all
    obtain ⟨e, he, hn⟩ := all
    rw [he]
    exact ⟨e, rfl, hn⟩

theorem composeKnown_of_expand {r : Resource} {profile : Option String} {force : Bool} {text : String}
    {segments : Segments} {isThere : Bool} {steps : List Json} (hwrites : Writes text segments)
    (hnew : isThere = true → r.addIfAbsent = false ∧ force = true)
    (hx : expand? profile segments r = some steps) :
    composeKnown r profile force text (inProfile profile segments) isThere =
      .ok ⟨inProfile profile segments, profile,
        some ⟨true, removalSteps (inProfile profile segments) isThere ++ steps⟩⟩ := by
  have hknown := composeKnown_expanded r profile force hwrites hnew
  rw [hx] at hknown
  exact hknown

theorem composeKnown_skipped {r : Resource} {profile : Option String} {force : Bool} {text : String}
    {address : Address} (h : r.addIfAbsent = true) :
    composeKnown r profile force text address true = .ok ⟨address, profile, none⟩ := by
  simp [composeKnown, h]

theorem composeKnown_refused {r : Resource} {profile : Option String} {text : String}
    {address : Address} (h : r.addIfAbsent = false) :
    composeKnown r profile false text address true =
      .error (.deploy (.resourceExists address.text)) := by
  simp [composeKnown, h]

/-- Which of the three ways a resource goes is decided by whether it is there and by its flags. -/
theorem composeKnown_decides (r : Resource) (profile : Option String) (force : Bool) {text : String}
    {segments : Segments} (hwrites : Writes text segments) (isThere : Bool) :
    let address := inProfile profile segments
    let result := composeKnown r profile force text address isThere
    (∀ composed, result = .ok composed →
      composed.address = address ∧ composed.profile = profile) ∧
    (result.map Composed.composite = .ok none ↔ isThere = true ∧ r.addIfAbsent = true) ∧
    ((∃ shown, result = .error (.deploy (.resourceExists shown))) ↔
      isThere = true ∧ r.addIfAbsent = false ∧ force = false) ∧
    ((isThere = true → r.addIfAbsent = false ∧ force = true) → ∀ steps,
      result.map Composed.composite = .ok (some ⟨true, steps⟩) ↔
        ∃ expansion, expand? profile segments r = some expansion ∧
          steps = removalSteps address isThere ++ expansion) := by
  intro address result
  by_cases hnew : isThere = true → r.addIfAbsent = false ∧ force = true
  · have hknown := composeKnown_expanded r profile force hwrites hnew
    have hskip : ¬(isThere = true ∧ r.addIfAbsent = true) := by
      rintro ⟨hthere, habsent⟩
      simp [(hnew hthere).1] at habsent
    have hrefuse : ¬(isThere = true ∧ r.addIfAbsent = false ∧ force = false) := by
      rintro ⟨hthere, -, hforce⟩
      simp [(hnew hthere).2] at hforce
    cases hx : expand? profile segments r with
    | some expansion =>
      rw [hx] at hknown
      have hresult : result = .ok ⟨address, profile,
        some ⟨true, removalSteps address isThere ++ expansion⟩⟩ := hknown
      rw [hresult]
      simp only [Except.map, hskip, hrefuse, Except.ok.injEq]
      simp
      exact fun _ _ => eq_comm
    | none =>
      rw [hx] at hknown
      obtain ⟨e, he, hn⟩ := hknown
      have hresult : result = .error e := he
      rw [hresult]
      simp only [Except.map, hskip, hrefuse]
      simpa [NotExists] using hn
  · obtain ⟨hthere, hflags⟩ := Classical.not_imp.1 hnew
    subst hthere
    cases habsent : r.addIfAbsent with
    | true =>
      have hresult : result = .ok ⟨address, profile, none⟩ := composeKnown_skipped habsent
      rw [hresult]
      simp [Except.map]
    | false =>
      have hforce : force = false := by simpa [habsent] using hflags
      subst hforce
      have hresult : result = .error (.deploy (.resourceExists address.text)) :=
        composeKnown_refused habsent
      rw [hresult]
      simp [Except.map]

/-- A composite is the expansion of the resource after what it replaces, rolled back as a whole. -/
theorem composeKnown_composite {r : Resource} {profile : Option String} {force : Bool} {text : String}
    {segments : Segments} (hwrites : Writes text segments) {isThere : Bool} {composed : Composed}
    {c : Composite}
    (h : composeKnown r profile force text (inProfile profile segments) isThere = .ok composed)
    (hc : composed.composite = some c) : ∃ expansion, expand? profile segments r = some expansion ∧
      c = ⟨true, removalSteps (inProfile profile segments) isThere ++ expansion⟩ := by
  by_cases hnew : isThere = true → r.addIfAbsent = false ∧ force = true
  · have hknown := composeKnown_expanded r profile force hwrites hnew
    cases hx : expand? profile segments r with
    | some expansion =>
      rw [hx] at hknown
      rw [h] at hknown
      cases hknown
      cases hc
      exact ⟨expansion, rfl, rfl⟩
    | none =>
      rw [hx] at hknown
      obtain ⟨e, he, -⟩ := hknown
      rw [h] at he
      cases he
  · obtain ⟨rfl, hflags⟩ := Classical.not_imp.1 hnew
    cases habsent : r.addIfAbsent with
    | true =>
      rw [composeKnown_skipped habsent] at h
      cases h
      cases hc
    | false =>
      have hforce : force = false := by simpa [habsent] using hflags
      subst hforce
      rw [composeKnown_refused habsent] at h
      cases h

/-- What is composed has an address and, unless there is nothing to do, a composite that is rolled back
as a whole. -/
theorem composeKnown_ok {r : Resource} {profile : Option String} {force : Bool} {text : String}
    {segments : Segments} (hwrites : Writes text segments) {isThere : Bool} {composed : Composed}
    (h : composeKnown r profile force text (inProfile profile segments) isThere = .ok composed) :
    composed.address = inProfile profile segments ∧
      ∀ c, composed.composite = some c → c.rollbackOnFailure = true := by
  obtain ⟨hplace, -⟩ := composeKnown_decides r profile force hwrites isThere
  refine ⟨(hplace composed h).1, fun c hc => ?_⟩
  obtain ⟨expansion, -, rfl⟩ := composeKnown_composite hwrites h hc
  rfl

variable {σ : Type} [Endpoint σ]

/-- Composing finds the place of the resource, looks for it there, and goes on with what was found. -/
theorem known_of_compose {client : Nat} {r : Resource} {base profile : Option String} {force : Bool}
    {w w' : World σ} {composed : Composed}
    (h : compose client r base profile force w = (.ok composed, w')) :
    ∃ text segments e, Writes text segments ∧ place? base r.address = some segments ∧
      placeAt profile base r.address = .ok (text, inProfile profile segments) ∧
      Existence.check client (inProfile profile segments) w = (.ok e, w') ∧
      composeKnown r profile force text (inProfile profile segments) e.found = .ok composed := by
  obtain ⟨⟨text, address⟩, w₁, hplaced, hchecked⟩ := Run.ok_of_bind h
  obtain ⟨e, w₂, hcheck, hcomposed⟩ := Run.ok_of_bind hchecked
  obtain ⟨hplace, rfl⟩ := Run.ok_of_ofExcept hplaced
  obtain ⟨hknown, rfl⟩ := Run.ok_of_ofExcept hcomposed
  have hseg := placeAt_placed profile base r.address
  rw [hplace] at hseg
  cases hs : place? base r.address with
  | none =>
    rw [hs] at hseg
    rcases hseg with he | ⟨part, he⟩ <;> cases he
  | some segments =>
    rw [hs] at hseg
    obtain ⟨text', hwrites, he⟩ := hseg
    cases he
    exact ⟨text, segments, e, hwrites, rfl, hplace, hcheck, hknown⟩

theorem compose_ok {client : Nat} {r : Resource} {base profile : Option String} {force : Bool}
    {w w' : World σ} {composed : Composed}
    (h : compose client r base profile force w = (.ok composed, w')) :
    (∃ text, placeAt profile base r.address = .ok (text, composed.address)) ∧
      ∀ c, composed.composite = some c → c.rollbackOnFailure = true := by
  obtain ⟨text, segments, e, hwrites, -, hplace, -, hknown⟩ := known_of_compose h
  obtain ⟨haddress, hroll⟩ := composeKnown_ok hwrites hknown
  exact ⟨⟨text, by rw [hplace, haddress]⟩, hroll⟩

theorem compose_eq_known {client : Nat} {r : Resource} {base : Option String}
    (profile : Option String) (force : Bool) {above : Segments} {kind name : String} {w w' : World σ} {o : Outcome}
    (hplace : place? base r.address = some (above ++ [(kind, name)]))
    (hread : Client.execute client (.obj (Operation.readResource (inProfile profile above) false)) w =
      (.ok o, w'))
    (hsuccess : o.isSuccessful = true) (hchildren : Existence.Reported (Existence.childrenIn o kind)) :
    ∃ text, Writes text (above ++ [(kind, name)]) ∧ compose client r base profile force w =
      (composeKnown r profile force text (inProfile profile (above ++ [(kind, name)]))
        (Existence.isListed name (Existence.childrenIn o kind)), w') := by
  obtain ⟨text, hwrites, hplaced⟩ := hplace ▸ placeAt_placed profile base r.address
  obtain ⟨count, hcheck⟩ := Existence.check_of_read name hread hsuccess hchildren
  refine ⟨text, hwrites, ?_⟩
  unfold compose
  rw [hplaced, Run.bind_of_ok (Run.ofExcept_apply _ w)]
  dsimp only
  rw [Run.bind_of_ok hcheck]
  exact Run.ofExcept_apply _ w'

/-- Composing gets no further than a read of the parent that does not succeed. -/
theorem read_of_compose {client : Nat} {r : Resource} {base profile : Option String} {force : Bool}
    {w w' : World σ} {composed : Composed}
    (h : compose client r base profile force w = (.ok composed, w')) :
    ∃ above kind name o w₁, place? base r.address = some (above ++ [(kind, name)]) ∧
      Client.execute client (.obj (Operation.readResource (inProfile profile above) false)) w =
        (.ok o, w₁) ∧ o.isSuccessful = true := by
  obtain ⟨text, segments, e, hwrites, hplace, -, hcheck, -⟩ := known_of_compose h
  obtain ⟨above, ⟨kind, name⟩, rfl⟩ : ∃ above last, segments = above ++ [last] :=
    ⟨_, _, (List.dropLast_concat_getLast hwrites.ne_nil).symm⟩
  unfold Existence.check at hcheck
  simp only [child?_inProfile, parent?_inProfile] at hcheck
  obtain ⟨o, w₁, hread, hrest⟩ := Run.ok_of_bind hcheck
  refine ⟨above, kind, name, o, w₁, hplace, hread, ?_⟩
  cases ho : o.isSuccessful with
  | true => rfl
  | false =>
    rw [ho] at hrest
    cases hrest

/-- Composing a resource is one successful read of its parent, from which all the rest follows:
nothing is composed for a resource that is there and need not be added again, one that is there and
may not be replaced is refused, and all others become their expansion after what they replace. -/
theorem compose_of_read {client : Nat} {r : Resource} {base profile : Option String} {force : Bool}
    {above : Segments} {kind name : String} {w w' : World σ} {o : Outcome}
    (hplace : place? base r.address = some (above ++ [(kind, name)]))
    (hread : Client.execute client (.obj (Operation.readResource (inProfile profile above) false)) w =
      (.ok o, w'))
    (hsuccess : o.isSuccessful = true) (hchildren : Existence.Reported (Existence.childrenIn o kind)) :
    let address := inProfile profile (above ++ [(kind, name)])
    let found := Existence.isListed name (Existence.childrenIn o kind)
    ∃ result, compose client r base profile force w = (result, w') ∧
      (∃ read : ClientCall, w.Follows read.talk w' ∧
        read.call = .operation (.obj (Operation.readResource (inProfile profile above) false)) ∧
        ((∀ x ∈ read.talk, Session.isRefusal x.reply = false) → read.talk.length = 1)) ∧
      (∀ composed, result = .ok composed →
        composed.address = address ∧ composed.profile = profile) ∧
      (result.map Composed.composite = .ok none ↔ found = true ∧ r.addIfAbsent = true) ∧
      ((∃ shown, result = .error (.deploy (.resourceExists shown))) ↔
        found = true ∧ r.addIfAbsent = false ∧ force = false) ∧
      ((found = true → r.addIfAbsent = false ∧ force = true) → ∀ steps,
        result.map Composed.composite = .ok (some ⟨true, steps⟩) ↔
          ∃ expansion, expand? profile (above ++ [(kind, name)]) r = some expansion ∧
            steps = removalSteps address found ++ expansion) := by
  intro address found
  obtain ⟨text, hwrites, hcompose⟩ := compose_eq_known profile force hplace hread hsuccess hchildren
  refine ⟨_, hcompose, ?_, ?_⟩
  · obtain ⟨calls, hf, hc⟩ := Client.execute_calls client
      (.obj (Operation.readResource (inProfile profile above) false)) w
    rw [hread] at hf hc
    obtain ⟨read, -, rfl, hcall, -, -⟩ := hc.ok
    refine ⟨read, by simpa using hf, hcall, fun h => ?_⟩
    obtain ⟨x, htalk, -⟩ := read.talk_of_not_refused h
    rw [htalk]
    rfl
  · exact composeKnown_decides r profile force hwrites found

def logging : Resource :=
  .mk (some "subsystem=logging") [] true false
    [.mk (some "logger=a") [] false false [] none none] none none

def loggingThere : Outcome :=
  [("outcome", .str "success"), ("result", .obj [("subsystem", .obj [("logging", .null)])])]

def loggingSteps : List Json := [
  .obj [("operation", .str "remove"), ("address", .arr [.obj [("subsystem", .str "logging")]]),
    ("recursive", .bool true)],
  .obj [("operation", .str "add"), ("address", .arr [.obj [("subsystem", .str "logging")]])],
  .obj [("operation", .str "add"),
    ("address", .arr [.obj [("subsystem", .str "logging")], .obj [("logger", .str "a")]])],
  .obj [("operation", .str "enable"), ("address", .arr [.obj [("subsystem", .str "logging")]])]]

theorem compose_of_read_logging :
    (compose 0 logging none none true
      (World.ready ([.answer 200 (.json (.obj loggingThere))] : Script))).1.map Composed.composite =
        .ok (some ⟨true, loggingSteps⟩) := by
  have hplace : place? none logging.address = some ([] ++ [("subsystem", "logging")]) := rfl
  have hread : ∃ w', Client.execute 0 (.obj (Operation.readResource (inProfile none []) false))
      (World.ready ([.answer 200 (.json (.obj loggingThere))] : Script)) =
        (.ok loggingThere, w') := ⟨_, rfl⟩
  have hexpand : expand? none ([] ++ [("subsystem", "logging")]) logging =
      some loggingSteps.tail := by
    have hbelow : below? [("subsystem", "logging")] (some "logger=a") =
        some [("subsystem", "logging"), ("logger", "a")] := rfl
    rw [logging, List.nil_append, expand?, expandAll?, expandAll?, Resource.address, hbelow,
      Option.bind_some, expand?, expandAll?]
    rfl
  have hremove : loggingSteps = removalSteps (inProfile none ([] ++ [("subsystem", "logging")]))
      (Existence.isListed "logging" (Existence.childrenIn loggingThere "subsystem")) ++
        loggingSteps.tail := rfl
  obtain ⟨w', hread⟩ := hread
  obtain ⟨result, hresult, -, -, -, -, hsteps⟩ :=
    compose_of_read hplace hread (by decide) trivial
  rw [hresult]
  exact (hsteps (fun _ => ⟨rfl, rfl⟩) _).2 ⟨_, hexpand, hremove⟩

end Resource

end ServerDeploy
