import ServerDeploy.Proofs.Resource.Batches
import ServerDeploy.Proofs.Resource.Reading
import ServerDeploy.Proofs.Resource.Refusal

/-! Hooks inside a tree. A batch runs the hooks of its resource, before and after the one composite for
the whole tree. What the resources below it declare is read with the rest of the configuration, but no
part of a run looks at it. -/

namespace ServerDeploy

namespace Resource

mutual

/-- A tree without hooks. -/
def hookless : Resource → Resource
  | .mk own properties enable addIfAbsent children _ _ =>
    .mk own properties enable addIfAbsent (hooklessAll children) none none

def hooklessAll : List Resource → List Resource
  | [] => []
  | child :: rest => hookless child :: hooklessAll rest

end

/-- A resource with its own hooks and with none below it. -/
def ownHooks (r : Resource) : Resource := r.withChildren (hooklessAll r.children)

theorem address_hookless (r : Resource) : r.hookless.address = r.address := by
  cases r
  rw [hookless]
  rfl

mutual

theorem appendNode_hookless (profile : Option String) (text : String) (address : Address) :
    ∀ (r : Resource) (c : Composite),
      appendNode profile c text address r.hookless = appendNode profile c text address r
  | .mk own properties enable addIfAbsent children beforeAdd afterAdd, c => by
    rw [hookless]
    unfold appendNode
    simp only [appendChildren_hookless profile text children]
    rfl

theorem appendChildren_hookless (profile : Option String) (text : String) :
    ∀ (children : List Resource) (c : Composite),
      appendChildren profile c text (hooklessAll children) = appendChildren profile c text children
  | [], c => rfl
  | child :: rest, c => by
    rw [hooklessAll]
    unfold appendChildren
    simp only [address_hookless, appendNode_hookless profile _ _ child,
      appendChildren_hookless profile text rest]

end

theorem appendNode_ownHooks (profile : Option String) (c : Composite) (text : String)
    (address : Address) (r : Resource) :
    appendNode profile c text address r.ownHooks = appendNode profile c text address r := by
  cases r
  unfold ownHooks withChildren appendNode
  simp only [children, appendChildren_hookless]
  rfl

theorem composeKnown_ownHooks (r : Resource) (profile : Option String) (force : Bool) (text : String)
    (address : Address) (isThere : Bool) :
    composeKnown r.ownHooks profile force text address isThere =
      composeKnown r profile force text address isThere := by
  unfold composeKnown
  simp only [appendNode_ownHooks]
  rfl

variable {σ : Type} [Endpoint σ]

theorem addOne_ownHooks (client : Nat) (options : AddOptions) (r : Resource) (profile : Option String) :
    (addOne client options r.ownHooks profile : Run σ (Batch × Option Fault)) =
      addOne client options r profile := by
  have hcompose : (compose client r.ownHooks options.base profile options.force : Run σ Composed) =
      compose client r options.base profile options.force := by
    unfold compose
    simp only [composeKnown_ownHooks]
    rfl
  unfold addOne
  rw [hcompose]
  rfl

theorem addEach_ownHooks (client : Nat) (options : AddOptions) (ts : List Target) :
    (addEach client options (ts.map fun t => (t.1.ownHooks, t.2)) : Run σ (List Batch × Option Fault)) =
      addEach client options ts := by
  induction ts with
  | nil => rfl
  | cons t ts ih =>
    rw [List.map_cons]
    unfold addEach
    rw [addOne_ownHooks, ih]

theorem addAll_ownHooks (client : Nat) (options : AddOptions) (profiles : List String)
    (rs : List Resource) :
    (addAll client options profiles (rs.map ownHooks) : Run σ (Report × Option Fault)) =
      addAll client options profiles rs := by
  have htargets (profiles : List (Option String)) : targets (rs.map ownHooks) profiles =
      (targets rs profiles).map fun t => (t.1.ownHooks, t.2) := by
    simp [targets, List.flatMap_map, List.map_flatMap, Function.comp_def]
  unfold addAll
  simp only [htargets, addEach_ownHooks, List.isEmpty_map]

end Resource

namespace Hook

/-- The commands of a hook; there are none without one. -/
def commandsOf (hook : Option Hook) : List String := hook.elim [] Hook.commands

/-- What the calls of a hook carry to the server. -/
def heard (hook : Option Hook) (calls : List ClientCall) : List Json :=
  (calls.map (·.call)).flatMap (carried (hook.any Hook.batch))

theorem reads_of_operations {commands : List String} {ops : List Operation}
    (h : operations commands = .ok ops) : Reads commands ops := by
  induction commands generalizing ops with
  | nil =>
    cases h
    exact .nil
  | cons command rest ih =>
    unfold operations at h
    cases hread : Command.read command with
    | error e =>
      rw [hread] at h
      cases h
    | ok op =>
      cases hrest : operations rest with
      | error e =>
        rw [hread, hrest] at h
        cases h
      | ok ops' =>
        rw [hread, hrest] at h
        cases h
        exact .cons hread (ih hrest)

theorem Reads.unique {commands : List String} {ops ops' : List Operation} (h : Reads commands ops)
    (h' : Reads commands ops') : ops = ops' :=
  Except.ok.inj ((operations_of_reads h).symm.trans (operations_of_reads h'))

theorem flatMap_requests {hook : Option Hook} {ops : List Operation}
    (h : operations (commandsOf hook) = .ok ops) :
    (requests hook).flatMap (carried (hook.any Hook.batch)) = ops.map .obj := by
  cases hook with
  | none =>
    cases h
    rfl
  | some hook =>
    change operations hook.commands = .ok ops at h
    unfold requests
    dsimp only
    split
    · next hnone =>
      rw [List.isEmpty_iff.1 hnone] at h
      cases h
      rfl
    · have hcarried := flatMap_carried hook.batch ops
      unfold submissions at hcarried
      rw [h, Option.any_some, ← hcarried]
      dsimp only
      split <;> rfl

variable {σ : Type} [Endpoint σ]

theorem operations_of_run {client n : Nat} {hook : Option Hook} {w w' : World σ}
    (h : run client hook w = (.ok n, w')) : ∃ ops, operations (commandsOf hook) = .ok ops := by
  cases hook with
  | none => exact ⟨[], rfl⟩
  | some hook =>
    change ∃ ops, operations hook.commands = .ok ops
    unfold run at h
    dsimp only at h
    split at h
    · next hnone => exact ⟨[], by rw [List.isEmpty_iff.1 hnone]; rfl⟩
    · obtain ⟨ops, w₁, hops, -⟩ := Run.ok_of_bind h
      exact ⟨ops, (Run.ok_of_ofExcept hops).1⟩

/-- A hook that ends well has made all its calls with success, and they carry its commands in order. -/
theorem run_heard {client n : Nat} {hook : Option Hook} {w w' : World σ}
    (h : run client hook w = (.ok n, w')) : ∃ calls ops, w.Follows (talkOf calls) w' ∧
      (∀ c ∈ calls, c.Succeeded) ∧ Reads (commandsOf hook) ops ∧ heard hook calls = ops.map .obj := by
  obtain ⟨calls, hfollows, hperforms⟩ := (run_performs client hook).of_eq h
  obtain ⟨hcalls, hsucceeded⟩ := hperforms.done n rfl
  obtain ⟨ops, hops⟩ := operations_of_run h
  refine ⟨calls, ops, hfollows, hsucceeded, reads_of_operations hops, ?_⟩
  rw [heard, hcalls, flatMap_requests hops]

end Hook

namespace Resource

def ownCommands (r : Resource) : List String :=
  Hook.commandsOf r.beforeAdd ++ Hook.commandsOf r.afterAdd

/-- The commands of all hooks in some trees. -/
def declared (rs : List Resource) : List String := (nodesOfAll rs).flatMap ownCommands

theorem declared_cons (r : Resource) (rs : List Resource) :
    declared (r :: rs) = r.ownCommands ++ declared r.children ++ declared rs := by
  unfold declared
  rw [nodesOfAll, nodes_eq]
  simp

theorem length_declared (rs : List Resource) :
    (declared rs).length =
      (rs.flatMap ownCommands).length + (rs.flatMap fun r => declared r.children).length := by
  induction rs with
  | nil => rfl
  | cons r rs ih =>
    rw [declared_cons, List.flatMap_cons, List.flatMap_cons]
    simp only [List.length_append, ih]
    omega

theorem declared_of_top {rs : List Resource} (h : ∀ r ∈ rs, declared r.children = []) :
    declared rs = rs.flatMap ownCommands := by
  induction rs with
  | nil => rfl
  | cons r rs ih =>
    rw [declared_cons, h r List.mem_cons_self, ih fun r hr => h r (.tail _ hr), List.flatMap_cons,
      List.append_nil]

/-- A batch of a run with its target and what was said for it. -/
structure Leg where
  target : Target
  batch : Batch
  talk : BatchTalk

namespace Leg

/-- What the hooks of the batch carry to the server. -/
def heard (p : Leg) : List Json :=
  Hook.heard p.target.1.beforeAdd p.talk.before ++ Hook.heard p.target.1.afterAdd p.talk.after

/-- The batch was submitted with its hooks, all with success: what they carry is read from the commands
of the resource itself. -/
structure Sent (base : Option String) (p : Leg) : Prop where
  look : p.talk.look.map (·.call) = lookRequests p.target.1 base p.target.2
  submission : p.talk.submitted.map (·.call) = [p.batch.submission]
  heard : ∃ ops, Hook.Reads p.target.1.ownCommands ops ∧ p.heard = ops.map .obj
  succeeded : ∀ c ∈ p.talk.all, c.Succeeded

theorem heard_of_sent {base : Option String} {legs : List Leg} (h : ∀ p ∈ legs, p.Sent base) :
    ∃ ops, Hook.Reads (legs.flatMap fun p => p.target.1.ownCommands) ops ∧
      legs.flatMap heard = ops.map .obj := by
  induction legs with
  | nil => exact ⟨[], .nil, rfl⟩
  | cons p legs ih =>
    obtain ⟨ops, hreads, hheard⟩ := (h p List.mem_cons_self).heard
    obtain ⟨ops', hreads', hheard'⟩ := ih fun p hp => h p (.tail _ hp)
    refine ⟨ops ++ ops', List.rel_append hreads hreads', ?_⟩
    rw [List.flatMap_cons, hheard, hheard', List.map_append]

end Leg

variable {σ : Type} [Endpoint σ] {client : Nat} {options : AddOptions}

theorem Course.sent {t : Target} {w w' : World σ} {b : Batch}
    (h : Course client options t w b none w') (hdry : options.dryRun = false)
    (hs : b.status ≠ .skipped) :
    ∃ l : BatchTalk, w.Follows (talkOf l.all) w' ∧ Leg.Sent options.base ⟨t, b, l⟩ := by
  cases h with
  | skipped hcompose hnone => exact absurd rfl hs
  | planned hcompose hc hplanned =>
    rw [hdry] at hplanned
    cases hplanned
  | committed hcompose hc _ hbefore hsubmit hafter =>
    obtain ⟨look, hf, hp⟩ :=
      (compose_performs client t.1 options.base t.2 options.force).of_eq hcompose
    obtain ⟨before, ops, hf₁, hs₁, hreads, hheard⟩ := Hook.run_heard hbefore
    obtain ⟨submitted, hf₂, hp₂⟩ := (Run.performs_executeRequired client _).of_eq hsubmit
    obtain ⟨after, ops', hf₃, hs₃, hreads', hheard'⟩ := Hook.run_heard hafter
    obtain ⟨hlook, hs₀⟩ := hp.done _ rfl
    obtain ⟨hsubmitted, hs₂⟩ := hp₂.done _ rfl
    refine ⟨⟨look, before, submitted, after⟩,
      by simpa [BatchTalk.all] using ((hf.trans hf₁).trans hf₂).trans hf₃, hlook, ?_,
      ⟨ops ++ ops', List.rel_append hreads hreads', ?_⟩, ?_⟩
    · rw [submission_composed hcompose hc]
      exact hsubmitted
    · rw [Leg.heard, hheard, hheard', List.map_append]
    · simp only [BatchTalk.all, List.mem_append]
      rintro c (((hc | hc) | hc) | hc)
      · exact hs₀ c hc
      · exact hs₁ c hc
      · exact hs₂ c hc
      · exact hs₃ c hc

theorem Courses.sent {ts : List Target} {w w' : World σ} {bs : List Batch}
    (h : Courses client options ts w bs none w') (hdry : options.dryRun = false)
    (hs : ∀ b ∈ bs, b.status ≠ .skipped) : ∃ legs : List Leg,
      legs.map Leg.target = ts ∧ legs.map Leg.batch = bs ∧
        w.Follows (talkOf (legs.flatMap (·.talk.all))) w' ∧ ∀ p ∈ legs, p.Sent options.base := by
  generalize hfault : (none : Option Fault) = fault at h
  induction h with
  | nil w => exact ⟨[], rfl, rfl, .refl w, nofun⟩
  | stop h => cases hfault
  | @cons t rest w w₁ w' b bs fault h _ ih =>
    obtain ⟨l, hf, hsent⟩ := h.sent hdry (hs b List.mem_cons_self)
    obtain ⟨legs, hts, hbs, hf', hall⟩ := ih (fun b hb => hs b (.tail _ hb)) hfault
    refine ⟨⟨t, b, l⟩ :: legs, by simp [hts], by simp [hbs], by simpa using hf.trans hf', ?_⟩
    intro p hp
    rcases List.mem_cons.1 hp with rfl | hp
    · exact hsent
    · exact hall p hp

/-- A run does not change when the hooks of all resources below the top are taken away. Where it submits
every batch on a standalone server and no fault ends it, each batch runs the hooks of its own resource
around its composite, and all that is said has success. What the hooks carry is read from the commands of
the resources at the top, each once and in order; this is all that the trees declare exactly when
nothing is declared below the top. -/
theorem addAll_hooks (client : Nat) (profiles : List String) (rs : List Resource) (w : World σ) :
    (∀ options, addAll client options profiles (rs.map ownHooks) w =
      addAll client options profiles rs w) ∧
    ∀ base force bs w', isDomain w client = false →
      addAll client ⟨base, force, false⟩ profiles rs w = (.ok (⟨bs, false⟩, none), w') →
      (∀ b ∈ bs, b.status ≠ .skipped) →
      ∃ legs : List Leg, legs.map Leg.target = rs.map (·, none) ∧ legs.map Leg.batch = bs ∧
        w.Follows (talkOf (legs.flatMap (·.talk.all))) w' ∧ (∀ p ∈ legs, p.Sent base) ∧
        (∃ ops, Hook.Reads (rs.flatMap ownCommands) ops ∧
          legs.flatMap Leg.heard = ops.map .obj) ∧
        ∀ all, Hook.Reads (declared rs) all →
          ((legs.flatMap Leg.heard).Perm (all.map .obj) ↔ ∀ r ∈ rs, declared r.children = []) := by
  refine ⟨fun options => congrFun (addAll_ownHooks client options profiles rs) w, ?_⟩
  intro base force bs w' hstandalone hrun hs
  obtain ⟨bs', fault, w'', hrun', hcases⟩ :=
    addAll_cases client ⟨base, force, false⟩ profiles rs w
  rw [hrun] at hrun'
  cases hrun'
  rcases hcases with ⟨e, -, -, hfault⟩ | ⟨w₁, hw₁, hcourses⟩
  · cases hfault
  obtain rfl : w₁ = w := by
    rcases hw₁ with heq | ⟨chosen, hchosen⟩
    · exact heq
    · unfold chosenProfiles at hchosen
      rw [hstandalone] at hchosen
      cases hchosen
      rfl
  obtain ⟨legs, htargets, hbatches, hf, hsent⟩ := hcourses.sent rfl hs
  have htop : legs.map Leg.target = rs.map (·, none) := by
    rw [htargets, enumeration, hstandalone]
    simp [targets, List.map_eq_flatMap]
  obtain ⟨ops, hreads, hheard⟩ := Leg.heard_of_sent hsent
  have hown : (legs.flatMap fun p => p.target.1.ownCommands) = rs.flatMap ownCommands := by
    have hmap := congrArg (List.flatMap fun t : Target => t.1.ownCommands) htop
    simpa [List.flatMap_map] using hmap
  rw [hown] at hreads
  refine ⟨legs, htop, hbatches, hf, hsent, ⟨ops, hreads, hheard⟩, fun all hall => ?_⟩
  rw [hheard]
  constructor
  · intro hperm r hr
    -- as many commands as operations: nothing is left for the resources below the top
    have hlength := hperm.length_eq
    rw [List.length_map, List.length_map, ← hreads.length_eq, ← hall.length_eq,
      length_declared] at hlength
    have hnone : (rs.flatMap fun r => declared r.children) = [] :=
      List.eq_nil_of_length_eq_zero (by omega)
    exact List.flatMap_eq_nil_iff.1 hnone r hr
  · intro htops
    rw [declared_of_top htops] at hall
    rw [hreads.unique hall]

/-- A logger with a command that one below it declares. -/
def hookedBelow : Resource :=
  .mk (some "subsystem=logging,logger=a") [] false false
    [.mk (some "handler=h") [] false false [] (some ⟨[":read-attribute(name=launch-type)"], false⟩) none]
    none none

/-- The logger is committed, and the command is not heard. -/
theorem addAll_hooks_below : declared [hookedBelow] = [":read-attribute(name=launch-type)"] ∧
    ∃ (bs : List Batch) (w' : World Script) (legs : List Leg),
      addAll 0 ⟨none, true, false⟩ [] [hookedBelow] addingServer = (.ok (⟨bs, false⟩, none), w') ∧
        bs.map (·.status) = [.committed] ∧
        addingServer.Follows (talkOf (legs.flatMap (·.talk.all))) w' ∧ legs.flatMap Leg.heard = [] := by
  have hdone : (addAll 0 ⟨none, true, false⟩ [] [hookedBelow] addingServer).1.toOption.map (fun r =>
      (r.1.batches.map (·.status), r.1.dryRun, r.2.isSome)) = some ([.committed], false, false) := by
    decide +kernel
  refine ⟨rfl, ?_⟩
  rcases hrun : addAll 0 ⟨none, true, false⟩ [] [hookedBelow] addingServer with
    ⟨e | ⟨⟨bs, dry⟩, fault⟩, w'⟩
  · rw [hrun] at hdone
    cases hdone
  rw [hrun] at hdone
  obtain ⟨hstatus, rfl, hfault⟩ : bs.map (·.status) = [.committed] ∧ dry = false ∧ fault.isSome = false := by
    simpa [Except.toOption] using hdone
  obtain rfl : fault = none := by simpa using hfault
  have hsubmitted : ∀ b ∈ bs, b.status ≠ .skipped := by
    intro b hb
    have hb' := List.mem_map_of_mem (f := Batch.status) hb
    rw [hstatus, List.mem_singleton] at hb'
    rw [hb']
    decide
  obtain ⟨legs, -, -, hf, -, ⟨ops, hreads, hheard⟩, -⟩ :=
    (addAll_hooks 0 [] [hookedBelow] addingServer).2 none true bs w' rfl hrun hsubmitted
  obtain rfl : ops = [] := hreads.unique .nil
  exact ⟨bs, w', legs, rfl, hstatus, hf, hheard⟩

end Resource

end ServerDeploy
