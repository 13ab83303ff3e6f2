import ServerDeploy.Proofs.Resource.Batches
import ServerDeploy.Proofs.Resource.Building
import ServerDeploy.Proofs.Session.Passing

/-! Adding a resource again. The second run finds what the first has left, so it is skipped or refused
unless it may replace the resource; the replacement takes away exactly what the first run has built
and builds it again. -/

namespace ServerDeploy

open Address ManagementServer Operation ResourceServer

theorem finite_readResource (address : Address) :
    (Json.obj (readResource address false)).hasNonFinite = false := by
  change (address.model.hasNonFinite || false) = false
  rw [finite_address, Bool.or_false]

theorem finite_remove (address : Address) :
    (Json.obj (remove address true)).hasNonFinite = false := by
  change (address.model.hasNonFinite || false) = false
  rw [finite_address, Bool.or_false]

variable {client : Nat} {w w₁ w₂ : World ResourceServer} {above : Segments}

theorem read_passing (hw : w.Passes client) (habove : w.endpoint.tree.Has above) :
    ∃ w', Client.execute client (.obj (readResource ⟨above⟩ false)) w =
        (.ok (succeeded (.obj (modelAt w.endpoint.tree above))), w') ∧
      w'.Passes client ∧ w'.endpoint = w.endpoint := by
  have hperform := perform_readResource w.endpoint above
  rw [if_pos habove] at hperform
  obtain ⟨w', hexecute, hkept⟩ := Client.execute_passing hw (finite_readResource ⟨above⟩)
    (by rw [hperform]; rfl)
  obtain ⟨hp, -⟩ := execute_performs hexecute
  rw [hperform] at hexecute hkept
  exact ⟨w', hexecute, (hkept rfl).1, congrArg Prod.snd (hp.symm.trans hperform)⟩

theorem read_ok {o : Outcome}
    (h : Client.execute client (.obj (readResource ⟨above⟩ false)) w = (.ok o, w₁))
    (ho : o.isSuccessful = true) : o = succeeded (.obj (modelAt w.endpoint.tree above)) ∧
      w₁.endpoint = w.endpoint := by
  obtain ⟨hp, -⟩ := execute_performs h
  rw [perform_readResource] at hp
  obtain ⟨houtcome, hendpoint⟩ := Prod.mk.inj hp
  refine ⟨?_, hendpoint.symm⟩
  by_cases habove : w.endpoint.tree.Has above
  · rw [← houtcome, if_pos habove]
  · rw [← houtcome, if_neg habove] at ho
    cases ho

namespace Resource

variable {r : Resource} {base : Option String} {force : Bool} {kind name : String}
  {place : Segments}

/-- Reading the parent of a resource tells whether the server has the resource. -/
theorem compose_of_reading (force : Bool)
    (hplace : place? base r.address = some (above ++ [(kind, name)]))
    (hfree : (w.endpoint.tree.attributesOf above).get? kind = none)
    (hread : Client.execute client (.obj (readResource ⟨above⟩ false)) w =
      (.ok (succeeded (.obj (modelAt w.endpoint.tree above))), w₁)) : ∃ text,
      Writes text (above ++ [(kind, name)]) ∧
      compose client r base none force w = (composeKnown r none force text
        ⟨above ++ [(kind, name)]⟩ (decide (above ++ [(kind, name)] ∈ w.endpoint.tree.keys)), w₁) := by
  obtain ⟨hreported, hlists⟩ := lists_modelAt name hfree
  have hchildren : Existence.childrenIn (succeeded (.obj (modelAt w.endpoint.tree above))) kind =
      ((modelAt w.endpoint.tree above).get? kind).getD .null := rfl
  rw [← hchildren] at hreported
  have hfound : Existence.isListed name (((modelAt w.endpoint.tree above).get? kind).getD .null) =
      decide (above ++ [(kind, name)] ∈ w.endpoint.tree.keys) :=
    Bool.eq_iff_iff.2 (hlists.trans decide_eq_true_iff.symm)
  have hsuccess : (succeeded (.obj (modelAt w.endpoint.tree above))).isSuccessful = true := rfl
  obtain ⟨text, hwrites, hcompose⟩ :=
    compose_eq_known none force hplace hread hsuccess hreported
  rw [hchildren, hfound] at hcompose
  exact ⟨text, hwrites, hcompose⟩

theorem compose_passing (force : Bool) (hw : w.Passes client)
    (hplace : place? base r.address = some (above ++ [(kind, name)]))
    (habove : w.endpoint.tree.Has above)
    (hfree : (w.endpoint.tree.attributesOf above).get? kind = none) : ∃ text w',
      Writes text (above ++ [(kind, name)]) ∧
      compose client r base none force w = (composeKnown r none force text
        ⟨above ++ [(kind, name)]⟩ (decide (above ++ [(kind, name)] ∈ w.endpoint.tree.keys)), w') ∧
      w'.Passes client ∧ w'.endpoint = w.endpoint := by
  obtain ⟨w', hread, hw', hendpoint⟩ := read_passing hw habove
  obtain ⟨text, hwrites, hcompose⟩ := compose_of_reading force hplace hfree hread
  exact ⟨text, w', hwrites, hcompose, hw', hendpoint⟩

theorem removalSteps_removalOf (place : Segments) (isThere : Bool) :
    removalSteps ⟨place⟩ isThere = (removalOf place isThere).map .obj := by
  cases isThere <;> rfl

/-- A composite that is executed has all its operations applied, and the next request passes. -/
theorem applied_of_executed {ops : List Operation} {o : Outcome}
    (hd : (w.clientAt client).isDomain = false)
    (h : Client.executeRequired client (.obj (Composite.build ⟨true, ops.map .obj⟩)) w = (.ok o, w₁))
    (hin : ∀ op ∈ ops, Within place op) :
    Applied w.endpoint ops w₁.endpoint ∧ w₁.Passes client ∧
      Json.hasNonFinite.nonFiniteItem (ops.map .obj) = false := by
  obtain ⟨hperform, hsuccess, -⟩ := executeRequired_performs h
  have happlied := applied_of_composite (hperform ▸ (perform_composite w.endpoint ops).symm) hsuccess
  have hguard : ManagementServer.isGuarded w₁.endpoint = ManagementServer.isGuarded w.endpoint := by
    rw [(applied_sameBut happlied hin).server]
    rfl
  obtain ⟨o', w', hexecute, hrequire⟩ := Run.ok_of_bind h
  obtain ⟨-, rfl⟩ := Run.ok_of_ofExcept hrequire
  exact ⟨happlied, Client.passes_of_execute hd hexecute hguard,
    Composite.hasNonFinite_build _ ▸ Client.finite_of_execute hexecute⟩

/-- What a run has done that added a resource: it has built the resource at its place. -/
structure Added (client : Nat) (r : Resource) (base : Option String) (above : Segments)
    (last : String × String) (ops : List Operation) (w w₁ : World ResourceServer) : Prop where
  place : place? base r.address = some (above ++ [last])
  expansion : expand? none (above ++ [last]) r = some (ops.map .obj)
  finite : Json.hasNonFinite.nonFiniteItem (ops.map .obj) = false
  built : Built (above ++ [last]) ops w.endpoint w₁.endpoint
  passes : w₁.Passes client

section Runs

variable (hbefore : r.beforeAdd = none) (hafter : r.afterAdd = none)

include hbefore hafter

theorem added_of_committed {b : Batch} {fault : Option Fault}
    (hd : (w.clientAt client).isDomain = false)
    (hkeys : ∀ node ∈ r.nodes, ∀ p ∈ node.properties, Unreserved p.1)
    (hfree : ∀ above kind name, place? base r.address = some (above ++ [(kind, name)]) →
      (w.endpoint.tree.attributesOf above).get? kind = none)
    (h : Course client ⟨base, force, false⟩ (r, none) w b fault w₁) (hb : b.status = .committed) :
    ∃ above last ops, Added client r base above last ops w w₁ ∧
      b.address = (⟨above ++ [last]⟩ : Address).text := by
  obtain ⟨composed, c, w', n, w₂, o, w₃, hcompose, hc, hhook, hsubmit, hend, haddress⟩ :=
    h.of_committed hb
  obtain ⟨above, kind, name, o', w₁', hplace, hread, ho'⟩ := read_of_compose hcompose
  obtain ⟨rfl, hendpoint⟩ := read_ok hread ho'
  have hw₁' := Client.passes_of_execute hd hread (by rw [hendpoint])
  obtain ⟨text, hwrites, hknown⟩ :=
    compose_of_reading force hplace (hfree above kind name hplace) hread
  rw [hknown] at hcompose
  obtain ⟨hcomposed, rfl⟩ := Prod.mk.inj hcompose
  obtain ⟨expansion, hexpand, rfl⟩ := composeKnown_composite hwrites hcomposed hc
  obtain ⟨ops, rfl, hops⟩ := expand_builds r hkeys hexpand
  -- without hooks nothing happens between the look for the resource and its composite, or after it
  dsimp only at hhook hend
  rw [hbefore, Hook.run_none] at hhook
  rw [hafter, Hook.run_none] at hend
  cases hhook
  cases hend
  rw [inProfile_none, removalSteps_removalOf, ← List.map_append] at hsubmit
  obtain ⟨happlied, hw₃, hfinite⟩ := applied_of_executed hw₁'.isDomain hsubmit
    (within_removal hops _)
  rw [hendpoint] at happlied
  rw [List.map_append, Json.nonFiniteItem_append] at hfinite
  refine ⟨above, (kind, name), ops, ⟨hplace, hexpand, (Bool.or_eq_false_iff.1 hfinite).2,
    built_of_applied hwrites.ne_nil hops happlied, hw₃⟩, ?_⟩
  rw [haddress, (composeKnown_ok hwrites hcomposed).1]
  rfl

/-- A resource whose steps can be applied is committed, unless it is there and may not be replaced. -/
theorem addOne_builds {ops : List Operation} {isThere : Bool} {s' : ResourceServer}
    (hw : w.Passes client) (hplace : place? base r.address = some (above ++ [(kind, name)]))
    (habove : w.endpoint.tree.Has above)
    (hfree : (w.endpoint.tree.attributesOf above).get? kind = none)
    (hexpand : expand? none (above ++ [(kind, name)]) r = some (ops.map .obj))
    (hfinite : Json.hasNonFinite.nonFiniteItem (ops.map .obj) = false)
    (hthere : decide (above ++ [(kind, name)] ∈ w.endpoint.tree.keys) = isThere)
    (hnew : isThere = true → r.addIfAbsent = false ∧ force = true)
    (happlied : Applied w.endpoint (removalOf (above ++ [(kind, name)]) isThere ++ ops) s') :
    ∃ w', addOne client ⟨base, force, false⟩ r none w =
        (.ok (⟨(⟨above ++ [(kind, name)]⟩ : Address).text, none, .committed,
          (removalOf (above ++ [(kind, name)]) isThere ++ ops).map .obj, none⟩, none), w') ∧
      w'.endpoint = s' := by
  obtain ⟨text, w₂, hwrites, hcompose, hw₂, hendpoint⟩ :=
    compose_passing force hw hplace habove hfree
  have hknown := composeKnown_expanded r none force hwrites hnew
  rw [hexpand] at hknown
  dsimp only at hknown
  rw [inProfile_none, removalSteps_removalOf, ← List.map_append] at hknown
  rw [hthere, hknown] at hcompose
  have hfinite' : Json.hasNonFinite.nonFiniteItem
      ((removalOf (above ++ [(kind, name)]) isThere ++ ops).map .obj) = false := by
    rw [List.map_append, Json.nonFiniteItem_append, hfinite, Bool.or_false]
    cases isThere with
    | false => rfl
    | true => exact (Bool.or_false _).trans (finite_remove _)
  obtain ⟨o, w₃, hsubmit, hkept⟩ :=
    Client.executeRequired_applied hw₂ hfinite' (hendpoint ▸ happlied)
  exact ⟨w₃, addOne_committed ⟨base, force, false⟩ (r, none) hcompose rfl rfl hbefore hafter hsubmit,
    hkept⟩

theorem addOne_added {ops : List Operation}
    (h : Added client r base above (kind, name) ops w w₁)
    (hfree : (w.endpoint.tree.attributesOf above).get? kind = none) (force : Bool) :
    let address : Address := ⟨above ++ [(kind, name)]⟩
    ∃ b fault w₂, addOne client ⟨base, force, false⟩ r none w₁ = (.ok (b, fault), w₂) ∧
      (r.addIfAbsent = true → b.status = .skipped ∧ fault = none) ∧
      (r.addIfAbsent = false → force = true → b.status = .committed ∧ fault = none ∧
        b.steps = .obj (remove address true) :: ops.map .obj) ∧
      (r.addIfAbsent = false → force = false →
        b.status = .failed ∧ fault = some (.deploy (.resourceExists address.text))) ∧
      w₂.endpoint = w₁.endpoint := by
  intro address
  have hfree₁ : (w₁.endpoint.tree.attributesOf above).get? kind = none := by
    rw [h.built.attributesOf_above, hfree]
  have hthere := decide_eq_true h.built.isThere
  obtain ⟨text, w₂, hwrites, hcompose, hw₂, hendpoint⟩ :=
    compose_passing force h.passes h.place h.built.has_above hfree₁
  rw [hthere] at hcompose
  cases habsent : r.addIfAbsent with
  | true =>
    rw [composeKnown_skipped habsent] at hcompose
    exact ⟨_, none, w₂, addOne_skipped ⟨base, force, false⟩ (r, none) hcompose rfl,
      fun _ => ⟨rfl, rfl⟩, nofun, nofun, hendpoint⟩
  | false =>
    cases force with
    | false =>
      rw [composeKnown_refused habsent] at hcompose
      exact ⟨_, _, w₂, addOne_refused ⟨base, false, false⟩ (r, none) hcompose,
        nofun, nofun, fun _ _ => ⟨rfl, rfl⟩, hendpoint⟩
    | true =>
      obtain ⟨w₃, hrun, hkept⟩ := addOne_builds hbefore hafter h.passes h.place h.built.has_above
        hfree₁ h.expansion h.finite hthere (fun _ => ⟨habsent, rfl⟩) h.built.again
      exact ⟨_, none, w₃, hrun, nofun, fun _ _ => ⟨rfl, rfl, rfl⟩, nofun, hkept⟩

end Runs

/-- A resource that was added is there for a second run. It is skipped if it need not be added again;
otherwise it is replaced if that is forced, and refused if not. The server is then as it was after the
first run. -/
theorem addAll_again {b : Batch} {fault : Option Fault} {profiles : List String}
    (hd : isDomain w client = false) (hbefore : r.beforeAdd = none) (hafter : r.afterAdd = none)
    (hkeys : ∀ node ∈ r.nodes, ∀ p ∈ node.properties, Unreserved p.1)
    (hfree : ∀ above kind name, place? base r.address = some (above ++ [(kind, name)]) →
      (w.endpoint.tree.attributesOf above).get? kind = none)
    (hfirst : addAll client ⟨base, force, false⟩ profiles [r] w = (.ok (⟨[b], false⟩, fault), w₁))
    (hb : b.status = .committed) (again : Bool) :
    ∃ b' fault' w₂,
      addAll client ⟨base, again, false⟩ profiles [r] w₁ = (.ok (⟨[b'], false⟩, fault'), w₂) ∧
      (r.addIfAbsent = true → b'.status = .skipped ∧ fault' = none) ∧
      (r.addIfAbsent = false → again = true → b'.status = .committed ∧ fault' = none ∧
        ∃ place expansion, place? base r.address = some place ∧
          expand? none place r = some expansion ∧
          b'.steps = .obj (remove ⟨place⟩ true) :: expansion) ∧
      (r.addIfAbsent = false → again = false →
        b'.status = .failed ∧ fault' = some (.deploy (.resourceExists b.address))) ∧
      w₂.endpoint = w₁.endpoint := by
  obtain ⟨b₁, fault₁, w', hone, hcourse⟩ :=
    addOne_course client ⟨base, force, false⟩ (r, none) w
  have hrun := addAll_single profiles hd hone
  rw [hfirst] at hrun
  cases hrun
  obtain ⟨above, ⟨kind, name⟩, ops, hadded, haddress⟩ :=
    added_of_committed hbefore hafter hd hkeys hfree hcourse hb
  obtain ⟨b', fault', w₂, hagain, hskipped, hreplaced, hrefused, hkept⟩ :=
    addOne_added hbefore hafter hadded (hfree above kind name hadded.place) again
  refine ⟨b', fault', w₂, addAll_single profiles hadded.passes.isDomain hagain, hskipped, ?_, ?_,
    hkept⟩
  · intro habsent hforce
    obtain ⟨hstatus, hfault, hsteps⟩ := hreplaced habsent hforce
    exact ⟨hstatus, hfault, _, _, hadded.place, hadded.expansion, hsteps⟩
  · intro habsent hforce
    rw [haddress]
    exact hrefused habsent hforce

def auditing : Resource :=
  .mk (some "subsystem=logging") [("level", .text "INFO")] true false
    [.mk (some "logger=a") [] false false [] none none] none none

def auditingSteps : List Operation :=
  [Members.set "level" (.str "INFO") (add ⟨[("subsystem", "logging")]⟩),
    add ⟨[("subsystem", "logging"), ("logger", "a")]⟩,
    Operation.enable ⟨[("subsystem", "logging")]⟩]

/-- A tree with a resource at the place of the other, and with one below it. -/
def loggingTree : ResourceTree :=
  ((ResourceTree.empty.add [("subsystem", "logging")] [("level", .str "WARN")]).bind fun t =>
    t.add [("subsystem", "logging"), ("logger", "old")] []).getD .empty

def loggingServer : ResourceServer := ⟨loggingTree, fun _ _ => "", fun _ => [], true⟩

def loggingWorld : World ResourceServer :=
  { World.ready loggingServer with
    sessions := [⟨true, .given ⟨.scalar (.text "user"), .scalar (.text "password")⟩, none, false⟩] }

theorem loggingWorld_connected : loggingWorld.Connected 0 :=
  ⟨rfl, rfl, rfl, nofun, fun _ _ => ⟨_, rfl, rfl⟩⟩

theorem expand?_auditing :
    expand? none [("subsystem", "logging")] auditing = some (auditingSteps.map .obj) := by
  have hbelow : below? [("subsystem", "logging")] (some "logger=a") =
      some [("subsystem", "logging"), ("logger", "a")] := rfl
  rw [auditing, expand?, expandAll?, expandAll?, Resource.address, hbelow, Option.bind_some, expand?,
    expandAll?]
  rfl

theorem auditing_unreserved :
    ∀ node ∈ auditing.nodes, ∀ p ∈ node.properties, Unreserved p.1 := by
  have hlevel : Unreserved "level" := by
    intro path hpath
    have hone : propertyPath? "level" = some ["level"] := rfl
    rw [hone] at hpath
    obtain rfl := Option.some.inj hpath
    decide
  intro node hnode p hp
  rcases List.mem_cons.1 hnode with rfl | hnode
  · obtain rfl := List.mem_singleton.1 hp
    exact hlevel
  · obtain rfl : node = .mk (some "logger=a") [] false false [] none none := by
      simpa [nodesOfAll, nodes] using hnode
    cases hp

theorem applied_auditing : ∃ s', Applied loggingServer
    (removalOf [("subsystem", "logging")] true ++ auditingSteps) s' :=
  ⟨_, .cons (by decide +kernel) rfl (.cons (by decide +kernel) rfl
    (.cons (by decide +kernel) rfl (.cons (by decide +kernel) rfl (.nil _))))⟩

theorem addAll_again_auditing : ∃ b w₁ b' w₂,
    addAll 0 ⟨none, true, false⟩ [] [auditing] loggingWorld = (.ok (⟨[b], false⟩, none), w₁) ∧
      b.status = .committed ∧
      addAll 0 ⟨none, true, false⟩ [] [auditing] w₁ = (.ok (⟨[b'], false⟩, none), w₂) ∧
      b'.status = .committed ∧ w₂.endpoint = w₁.endpoint := by
  have hplace : place? none auditing.address = some ([] ++ [("subsystem", "logging")]) := rfl
  have hfree : ∀ above kind name, place? none auditing.address = some (above ++ [(kind, name)]) →
      (loggingWorld.endpoint.tree.attributesOf above).get? kind = none := by
    intro above kind name h
    rw [hplace] at h
    obtain ⟨rfl, -⟩ := List.append_inj' (Option.some.inj h) rfl
    rfl
  obtain ⟨s', happlied⟩ := applied_auditing
  obtain ⟨w₁, hone, -⟩ := addOne_builds rfl rfl loggingWorld_connected.passes hplace (.inl rfl)
    (hfree _ _ _ hplace) expand?_auditing rfl (by decide +kernel) (fun _ => ⟨rfl, rfl⟩) happlied
  have hfirst := addAll_single [] rfl hone
  obtain ⟨b', fault', w₂, hagain, -, hreplaced, -, hkept⟩ := addAll_again rfl rfl rfl
    auditing_unreserved hfree hfirst rfl true
  obtain ⟨hstatus, rfl, -⟩ := hreplaced rfl rfl
  exact ⟨_, w₁, b', w₂, hfirst, rfl, hagain, hstatus, hkept⟩

end Resource

end ServerDeploy
