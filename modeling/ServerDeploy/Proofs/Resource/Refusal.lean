import ServerDeploy.Proofs.Resource.Attributes
import ServerDeploy.Proofs.Resource.DryRun
import ServerDeploy.Proofs.Resource.HookRun

/-! Descriptions that cannot be used. Addresses, property keys and values are read while a resource is
composed, and the commands before it before it is submitted, so what is wrong with them leaves nothing
on the server. The commands after it are read when the resource is there already. -/

namespace ServerDeploy

open Address

namespace Address

/-- A part of an address text is no segment. -/
def Unreadable (s : String) : Prop := ∃ part ∈ splitAtChar ',' s.toList, readSegment? part = none

theorem readSegments_unreadable {part : List Char} {parts : List (List Char)} (hpart : part ∈ parts)
    (h : readSegment? part = none) : ∃ e, readSegments parts = .error e := by
  induction parts with
  | nil => cases hpart
  | cons first rest ih =>
    unfold readSegments
    cases hfirst : readSegment? first with
    | none => exact ⟨_, rfl⟩
    | some segment =>
      rcases List.mem_cons.1 hpart with rfl | hrest
      · rw [h] at hfirst
        cases hfirst
      · obtain ⟨e, he⟩ := ih hrest
        rw [he]
        exact ⟨e, rfl⟩

theorem segmentsOf?_unreadable {s : String} (h : Unreadable s) : segmentsOf? s = none := by
  obtain ⟨part, hpart, hnone⟩ := h
  obtain ⟨e, he⟩ := readSegments_unreadable hpart hnone
  unfold segmentsOf?
  rw [he]
  rfl

end Address

def Hook.Unreadable (hook : Option Hook) : Prop :=
  ∃ h ∈ hook, ∃ command ∈ h.commands, ∃ e, Command.read command = .error e

theorem Hook.run_of_unreadable {σ : Type} [Endpoint σ] {hook : Option Hook}
    (h : Hook.Unreadable hook) (client : Nat) (w : World σ) :
    ∃ e, Hook.run client hook w = (.error e, w) := by
  obtain ⟨k, hk, command, hmem, e, hread⟩ := h
  obtain rfl : hook = some k := hk
  exact Hook.run_unreadable hmem hread w

theorem Hook.not_run_of_unreadable {σ : Type} [Endpoint σ] {hook : Option Hook} {client n : Nat}
    {w w' : World σ} (h : Hook.Unreadable hook) (hrun : Hook.run client hook w = (.ok n, w')) : False := by
  obtain ⟨e, he⟩ := Hook.run_of_unreadable h client w
  rw [he] at hrun
  cases hrun

theorem Hook.requests_of_unreadable {hook : Option Hook} (h : Hook.Unreadable hook) :
    Hook.requests hook = [] := by
  obtain ⟨k, hk, command, hmem, e, hread⟩ := h
  obtain rfl : hook = some k := hk
  obtain ⟨e', he'⟩ := Hook.operations_of_unreadable hmem hread
  unfold Hook.requests
  dsimp only
  rw [he']
  split <;> rfl

namespace Resource

theorem names_subset_setProperty (key : String) (v : PropertyValue)
    (properties : List (String × PropertyValue)) :
    key :: properties.map Prod.fst ⊆ (setProperty key v properties).map Prod.fst := by
  induction properties with
  | nil => exact List.Subset.refl _
  | cons property rest ih =>
    obtain ⟨k, u⟩ := property
    unfold setProperty
    split
    · next hk => simp [hk]
    · intro name hname
      simp only [List.map_cons, List.mem_cons] at hname ⊢
      rcases hname with rfl | rfl | hname
      · exact .inr (ih List.mem_cons_self)
      · exact .inl rfl
      · exact .inr (ih (List.mem_cons_of_mem _ hname))

/-- No key is lost, though of several values for a key only the last is kept. -/
theorem names_subset_propertyMap (r : Resource) :
    r.properties.map Prod.fst ⊆ r.propertyMap.map Prod.fst := by
  have hfold : ∀ properties done : List (String × PropertyValue),
      done.map Prod.fst ++ properties.map Prod.fst ⊆
        (properties.foldl (fun done p => setProperty p.1 p.2 done) done).map Prod.fst := by
    intro properties
    induction properties with
    | nil => simp
    | cons property rest ih =>
      intro done name hname
      have hstep := names_subset_setProperty property.1 property.2 done
      refine ih (setProperty property.1 property.2 done) ?_
      simp only [List.map_cons, List.mem_append, List.mem_cons] at hname ⊢
      rcases hname with hdone | rfl | hrest
      · exact .inl (hstep (List.mem_cons_of_mem _ hdone))
      · exact .inl (hstep List.mem_cons_self)
      · exact .inr hrest
  exact hfold r.properties []

/-- What can be wrong with the description of a resource or one below it. -/
inductive Malformed (base : Option String) (r : Resource) : Prop where
  | nowhere (hbase : addressOrNone base = none) (hown : addressOrNone r.address = none)
  | base {s : String} (hbase : addressOrNone base = some s) (hs : Unreadable s)
  | address {node : Resource} {s : String} (hnode : node ∈ r.nodes)
      (hown : addressOrNone node.address = some s) (hs : Unreadable s)
  | key {node : Resource} {p : String × PropertyValue} (hnode : node ∈ r.nodes)
      (hp : p ∈ node.properties) (hkey : ¬Operation.ProperKey p.1)
  | literal {node : Resource} {key raw : String} {failure : TypedLiteral.Failure}
      (hnode : node ∈ r.nodes) (hp : (key, PropertyValue.literal raw) ∈ node.propertyMap)
      (hraw : TypedLiteral.parse raw = .error failure)

theorem nodes_eq (r : Resource) : r.nodes = r :: nodesOfAll r.children := by
  cases r
  rw [nodes]
  rfl

def Addable (r : Resource) : Prop := ∃ address step, addStep? address r = some step

def Placeable (r : Resource) : Prop := ∃ above inner, below? above r.address = some inner

mutual

/-- An expansion has made the add of every node and found the place of every descendant. -/
theorem expand_made (profile : Option String) : ∀ (r : Resource) {segments : Segments}
    {steps : List Json}, expand? profile segments r = some steps →
      (∀ node ∈ r.nodes, Addable node) ∧ ∀ node ∈ nodesOfAll r.children, Placeable node
  | .mk own properties enable addIfAbsent children beforeAdd afterAdd, segments, steps, h => by
    unfold expand? at h
    obtain ⟨add, hadd, h⟩ := Option.bind_eq_some_iff.1 h
    obtain ⟨inner, hinner, rfl⟩ := Option.map_eq_some_iff.1 h
    have hbelow := expandAll_made profile children hinner
    refine ⟨fun node hnode => ?_, fun node hnode => (hbelow node hnode).2⟩
    rw [nodes_eq] at hnode
    rcases List.mem_cons.1 hnode with rfl | hnode
    · exact ⟨_, add, hadd⟩
    · exact (hbelow node hnode).1

theorem expandAll_made (profile : Option String) : ∀ (children : List Resource)
    {segments : Segments} {steps : List Json}, expandAll? profile segments children = some steps →
      ∀ node ∈ nodesOfAll children, Addable node ∧ Placeable node
  | [], segments, steps, h => by
    rw [nodesOfAll]
    exact nofun
  | child :: rest, segments, steps, h => by
    unfold expandAll? at h
    obtain ⟨inner, hinner, h⟩ := Option.bind_eq_some_iff.1 h
    obtain ⟨first, hfirst, h⟩ := Option.bind_eq_some_iff.1 h
    obtain ⟨more, hmore, rfl⟩ := Option.map_eq_some_iff.1 h
    obtain ⟨hadds, hplaces⟩ := expand_made profile child hfirst
    intro node hnode
    rw [nodesOfAll] at hnode
    rcases List.mem_append.1 hnode with hnode | hnode
    -- the first child is placed by the list it stands in, what is below it by its own expansion
    · refine ⟨hadds node hnode, ?_⟩
      rw [nodes_eq] at hnode
      rcases List.mem_cons.1 hnode with rfl | hnode
      · exact ⟨segments, inner, hinner⟩
      · exact hplaces node hnode
    · exact expandAll_made profile rest hmore node hnode

end

theorem Addable.writable {r : Resource} (h : r.Addable) :
    ∀ p ∈ rawProperties r, Operation.Writable p := by
  obtain ⟨address, step, hstep⟩ := h
  obtain ⟨op, hadd, -⟩ := eq_of_addStep? hstep
  exact Operation.writable_of_setProperties hadd

theorem not_addable_of_key {r : Resource} {p : String × PropertyValue} (hp : p ∈ r.properties)
    (hkey : ¬Operation.ProperKey p.1) : ¬r.Addable := by
  intro h
  obtain ⟨q, hq, hname⟩ := List.mem_map.1 (names_subset_propertyMap r (List.mem_map_of_mem hp))
  have hraw : (q.1, RawValue.value q.2) ∈ rawProperties r := List.mem_map.2 ⟨q, hq, rfl⟩
  exact hkey (hname ▸ (h.writable _ hraw).key)

theorem not_addable_of_literal {r : Resource} {key raw : String} {failure : TypedLiteral.Failure}
    (hp : (key, PropertyValue.literal raw) ∈ r.propertyMap)
    (hraw : TypedLiteral.parse raw = .error failure) : ¬r.Addable := by
  intro h
  have hmem : (key, RawValue.value (.literal raw)) ∈ rawProperties r := List.mem_map.2 ⟨_, hp, rfl⟩
  obtain ⟨value, hvalue⟩ := (h.writable _ hmem).value
  simp [Operation.meaning?, PropertyValue.ofRaw, PropertyValue.resolve, hraw, Except.mapError,
    Except.toOption] at hvalue

theorem below?_unreadable {own : Option String} {s : String} (hown : addressOrNone own = some s)
    (hs : Unreadable s) (above : Segments) : below? above own = none := by
  unfold below?
  rw [hown]
  dsimp only
  rw [segmentsOf?_unreadable hs]
  rfl

theorem place?_unreadable {base own : Option String} {s : String} (hown : addressOrNone own = some s)
    (hs : Unreadable s) : place? base own = none := by
  unfold place?
  cases addressOrNone base with
  | none =>
    dsimp only
    rw [hown, Option.bind_some, segmentsOf?_unreadable hs]
  | some text =>
    refine Option.bind_eq_none_iff.2 fun inherited _ => ?_
    exact below?_unreadable hown hs inherited

/-- A malformed description has no place or, wherever it is placed, no expansion. -/
theorem Malformed.expand {base : Option String} {r : Resource} (h : r.Malformed base)
    {segments : Segments} (hplace : place? base r.address = some segments)
    (profile : Option String) : expand? profile segments r = none := by
  by_contra hexpand
  obtain ⟨steps, hsteps⟩ := Option.ne_none_iff_exists'.1 hexpand
  obtain ⟨hadds, hplaces⟩ := expand_made profile r hsteps
  cases h with
  | nowhere hbase hown => simp [place?, hbase, hown] at hplace
  | base hbase hs => simp [place?, hbase, segmentsOf?_unreadable hs] at hplace
  | @address node s hnode hown hs =>
    rw [nodes_eq] at hnode
    rcases List.mem_cons.1 hnode with rfl | hnode
    · rw [place?_unreadable hown hs] at hplace
      cases hplace
    · obtain ⟨above, inner, hinner⟩ := hplaces node hnode
      rw [below?_unreadable hown hs] at hinner
      cases hinner
  | key hnode hp hkey => exact not_addable_of_key hp hkey (hadds _ hnode)
  | literal hnode hp hraw => exact not_addable_of_literal hp hraw (hadds _ hnode)

variable {σ : Type} [Endpoint σ] {client : Nat} {base profile : Option String} {force : Bool}
  {r : Resource} {w w' : World σ}

/-- The look for a resource that need not be added again has found it. -/
def FoundThere (client : Nat) (base profile : Option String) (r : Resource) (w : World σ) : Prop :=
  r.addIfAbsent = true ∧ ∃ segments e w₁, place? base r.address = some segments ∧
    Existence.check client (inProfile profile segments) w = (.ok e, w₁) ∧ e.found = true

theorem foundThere_of_compose {composed : Composed}
    (h : compose client r base profile force w = (.ok composed, w')) (hnone : composed.composite = none) :
    FoundThere client base profile r w := by
  obtain ⟨text, segments, e, hwrites, hplace, -, hcheck, hknown⟩ := known_of_compose h
  obtain ⟨-, hskipped, -, -⟩ := composeKnown_decides r profile force hwrites e.found
  rw [hknown] at hskipped
  obtain ⟨hfound, habsent⟩ := hskipped.1 (congrArg Except.ok hnone)
  exact ⟨habsent, segments, e, w', hplace, hcheck, hfound⟩

theorem Malformed.composite {composed : Composed} (h : r.Malformed base)
    (hcompose : compose client r base profile force w = (.ok composed, w')) :
    composed.composite = none := by
  by_contra hsome
  obtain ⟨c, hc⟩ := Option.ne_none_iff_exists'.1 hsome
  obtain ⟨text, segments, e, hwrites, hplace, -, -, hknown⟩ := known_of_compose hcompose
  obtain ⟨expansion, hexpansion, -⟩ := composeKnown_composite hwrites hknown hc
  rw [h.expand hplace profile] at hexpansion
  cases hexpansion

variable {options : AddOptions} {t : Target} {b : Batch} {fault : Option Fault}

/-- A batch that cannot be composed or begun gets no further than its look. -/
theorem Course.only_looks (h : Course client options t w b fault w') (hdry : options.dryRun = false)
    (hbad : t.1.Malformed options.base ∨ Hook.Unreadable t.1.beforeAdd) :
    b.status ≠ .committed ∧
      (fault ≠ none ∨ b.status = .skipped ∧ FoundThere client options.base t.2 t.1 w) ∧
      ∃ look : List ClientCall, w.Follows (talkOf look) w' ∧
        look.map (·.call) <+: lookRequests t.1 options.base t.2 := by
  have looked {u : World σ} {result : Except Fault Composed}
      (hcompose : compose client t.1 options.base t.2 options.force w = (result, u)) :
      ∃ look : List ClientCall, w.Follows (talkOf look) u ∧
        look.map (·.call) <+: lookRequests t.1 options.base t.2 := by
    obtain ⟨look, hf, hp⟩ := (compose_performs client t.1 options.base t.2 options.force).of_eq hcompose
    exact ⟨look, hf, hp.begun⟩
  -- a composite leaves only the first hook to be wrong, which then says nothing
  have unread {u : World σ} {composed : Composed} {c : Composite}
      (hcompose : compose client t.1 options.base t.2 options.force w = (.ok composed, u))
      (hc : composed.composite = some c) : Hook.Unreadable t.1.beforeAdd := by
    refine hbad.resolve_left fun hmalformed => ?_
    rw [hmalformed.composite hcompose] at hc
    cases hc
  cases h with
  | refused hcompose => exact ⟨endBatch_uncommitted _ rfl, .inl (by simp), looked hcompose⟩
  | skipped hcompose hnone =>
    exact ⟨by simp, .inr ⟨rfl, foundThere_of_compose hcompose hnone⟩, looked hcompose⟩
  | planned _ _ hplans => simp [hdry] at hplans
  | @hookFailed w₁ _ _ _ _ hcompose hc _ hbefore =>
    obtain ⟨e, he⟩ := Hook.run_of_unreadable (unread hcompose hc) client w₁
    rw [he] at hbefore
    cases hbefore
    exact ⟨endBatch_uncommitted _ rfl, .inl (by simp), looked hcompose⟩
  | rejected hcompose hc _ hbefore _ =>
    exact (Hook.not_run_of_unreadable (unread hcompose hc) hbefore).elim
  | unfinished hcompose hc _ hbefore _ _ =>
    exact (Hook.not_run_of_unreadable (unread hcompose hc) hbefore).elim
  | committed hcompose hc _ hbefore _ _ =>
    exact (Hook.not_run_of_unreadable (unread hcompose hc) hbefore).elim

/-- Commands that cannot be read end the batch they come after, and none of them is sent. -/
theorem Course.stops_after (h : Course client options t w b fault w') (hdry : options.dryRun = false)
    (hbad : Hook.Unreadable t.1.afterAdd) :
    (fault ≠ none ∨ b.status = .skipped ∧ FoundThere client options.base t.2 t.1 w) ∧
      ∃ l : BatchTalk, w.Follows (talkOf l.all) w' ∧ Tells options t b l ∧ l.after = [] ∧
        (b.status = .committed ↔ ∃ c ∈ l.submitted, c.Succeeded) := by
  refine ⟨?_, ?_⟩
  · cases h with
    | skipped hcompose hnone => exact .inr ⟨rfl, foundThere_of_compose hcompose hnone⟩
    | planned _ _ hplans => simp [hdry] at hplans
    | committed _ _ _ _ _ hafter => exact (Hook.not_run_of_unreadable hbad hafter).elim
    | refused _ => exact .inl (by simp)
    | hookFailed _ _ _ _ => exact .inl (by simp)
    | rejected _ _ _ _ _ => exact .inl (by simp)
    | unfinished _ _ _ _ _ _ => exact .inl (by simp)
  · obtain ⟨l, hf, htells, -, hcommitted⟩ := h.talk
    have hafter := htells.after
    rw [Hook.requests_of_unreadable hbad, List.prefix_nil, List.map_eq_nil_iff] at hafter
    exact ⟨l, hf, htells, hafter, hcommitted⟩

/-- What is wrong with the description of a resource, or with the commands before it, ends its run after
the look and leaves the resource alone. The commands after it are not read before its composite is
executed: when they are wrong the run ends with a fault all the same, none of them is sent, and the
resource is committed if its composite has succeeded. A resource that is there and need not be added
again is skipped whatever is wrong. -/
theorem addAll_refuses (client : Nat) (base : Option String) (force : Bool) (profiles : List String)
    (r : Resource) (w : World σ) (hd : isDomain w client = false) : ∃ b fault w',
      addAll client ⟨base, force, false⟩ profiles [r] w = (.ok (⟨[b], false⟩, fault), w') ∧
      (r.Malformed base ∨ Hook.Unreadable r.beforeAdd → b.status ≠ .committed ∧
        (fault ≠ none ∨ b.status = .skipped ∧ FoundThere client base none r w) ∧
        ∃ look : List ClientCall, w.Follows (talkOf look) w' ∧
          look.map (·.call) <+: lookRequests r base none) ∧
      (Hook.Unreadable r.afterAdd →
        (fault ≠ none ∨ b.status = .skipped ∧ FoundThere client base none r w) ∧
        ∃ l : BatchTalk, w.Follows (talkOf l.all) w' ∧ Tells ⟨base, force, false⟩ (r, none) b l ∧
          l.after = [] ∧ (b.status = .committed ↔ ∃ c ∈ l.submitted, c.Succeeded)) := by
  obtain ⟨b, fault, w', hone, hcourse⟩ := addOne_course client ⟨base, force, false⟩ (r, none) w
  exact ⟨b, fault, w', addAll_single profiles hd hone, hcourse.only_looks rfl, hcourse.stops_after rfl⟩

/-- A logger with a filter that cannot be read. -/
def unfiltered : Resource :=
  .mk (some "logger=a") [("filter", .literal "(")] false false [] none none

def loggingUnfiltered : Resource :=
  .mk (some "subsystem=logging") [] false false [unfiltered] none none

/-- A logger with a command to run after it is added that cannot be read. -/
def unfollowed : Resource :=
  .mk (some "subsystem=logging,logger=a") [] false false [] none (some ⟨["fix"], false⟩)

theorem malformed_unfiltered : loggingUnfiltered.Malformed none := by
  have hnode : unfiltered ∈ loggingUnfiltered.nodes := by
    simp [loggingUnfiltered, nodes_eq, nodesOfAll, Resource.children]
  have hraw : (TypedLiteral.parse "(").toOption = none := by decide +kernel
  cases hparsed : TypedLiteral.parse "(" with
  | error failure => exact .literal hnode List.mem_cons_self hparsed
  | ok v => simp [hparsed, Except.toOption] at hraw

theorem unreadable_unfollowed : Hook.Unreadable unfollowed.afterAdd := by
  have hread : (Command.read "fix").toOption = none := by decide +kernel
  refine ⟨_, rfl, "fix", List.mem_cons_self, ?_⟩
  cases hcommand : Command.read "fix" with
  | error e => exact ⟨e, rfl⟩
  | ok op => simp [hcommand, Except.toOption] at hread

/-- Of the logger with the filter there is no more than a look, and of the command after the other one
nothing at all. -/
theorem addAll_refuses_unreadable :
    (∃ (b : Batch) (fault : Option Fault) (w' : World Script) (look : List ClientCall),
      addAll 0 ⟨none, true, false⟩ [] [loggingUnfiltered] addingServer = (.ok (⟨[b], false⟩, fault), w') ∧
        b.status ≠ .committed ∧ fault ≠ none ∧ addingServer.Follows (talkOf look) w' ∧
        look.map (·.call) <+: lookRequests loggingUnfiltered none none) ∧
    ∃ (b : Batch) (fault : Option Fault) (w' : World Script) (l : BatchTalk),
      addAll 0 ⟨none, true, false⟩ [] [unfollowed] addingServer = (.ok (⟨[b], false⟩, fault), w') ∧
        fault ≠ none ∧ addingServer.Follows (talkOf l.all) w' ∧ l.after = [] := by
  constructor
  · obtain ⟨b, fault, w', hrun, hrefused, -⟩ :=
      addAll_refuses 0 none true [] loggingUnfiltered addingServer rfl
    obtain ⟨hstatus, hfault, look, hf, hlook⟩ := hrefused (.inl malformed_unfiltered)
    refine ⟨b, fault, w', look, hrun, hstatus, hfault.resolve_right ?_, hf, hlook⟩
    rintro ⟨-, habsent, -⟩
    cases habsent
  · obtain ⟨b, fault, w', hrun, -, hstopped⟩ := addAll_refuses 0 none true [] unfollowed addingServer rfl
    obtain ⟨hfault, l, hf, -, hafter, -⟩ := hstopped unreadable_unfollowed
    refine ⟨b, fault, w', l, hrun, hfault.resolve_right ?_, hf, hafter⟩
    rintro ⟨-, habsent, -⟩
    cases habsent

/-- A logger with two values for a property, of which the first cannot be read. -/
def refiltered : Resource :=
  .mk (some "subsystem=logging,logger=a") [("filter", .literal "("), ("filter", .text "ok")] false false []
    none none

/-- A command that cannot be read comes too late to keep its logger back, and a value that cannot be read
does not count when another one follows for its property. -/
theorem addAll_commits_unread :
    (Hook.Unreadable unfollowed.afterAdd ∧
      (addAll 0 ⟨none, true, false⟩ [] [unfollowed] addingServer).1.toOption.map (fun r =>
        (r.1.batches.map (·.status), r.2.isSome)) = some ([.committed], true)) ∧
    ("filter", .literal "(") ∈ refiltered.properties ∧ (TypedLiteral.parse "(").toOption = none ∧
      (addAll 0 ⟨none, true, false⟩ [] [refiltered] addingServer).1.toOption.map (fun r =>
        (r.1.batches.map (·.status), r.2.isSome)) = some ([.committed], false) := by
  refine ⟨⟨unreadable_unfollowed, ?_⟩, List.mem_cons_self, ?_, ?_⟩ <;> decide +kernel

end Resource

end ServerDeploy
