import ServerDeploy.Proofs.Resource.Batches
import ServerDeploy.Proofs.Session.Connected
import ServerDeploy.Proofs.Session.Reaching

/-! Dry runs. A dry run only looks. What it plans for a resource is what a run that submits sends after
the same look, unless the steps hold a number that no request can carry. -/

namespace ServerDeploy

open Run

variable {σ : Type} [Endpoint σ] {client client' : Nat} {w w' v v' : World σ}

/-- Clients of two worlds to whom the operations of a plan come to the same. -/
def SameOutcomes (plan : List Call) (client : Nat) (w : World σ) (client' : Nat) (v : World σ) : Prop :=
  ∀ op, .operation op ∈ plan → (Client.execute client op w).1 = (Client.execute client' op v).1

namespace Existence

theorem check_apply (client : Nat) (address : Address) (w : World σ) : check client address w =
    match address.child?, address.parent? with
    | some (kind, name), some parent =>
      ((Client.execute client (.obj (Operation.readResource parent false)) w).1 >>= fun o =>
          if o.isSuccessful then ofResult kind name o.result else .error (.deploy o.toError),
        (Client.execute client (.obj (Operation.readResource parent false)) w).2)
    | _, _ => (.error (.deploy .emptyAddress), w) := by
  unfold check
  rcases address.child? with _ | ⟨kind, name⟩
  · rfl
  rcases address.parent? with _ | parent
  · rfl
  dsimp only
  rw [bind_apply]
  rcases Client.execute client (.obj (Operation.readResource parent false)) w with ⟨e | o, w₁⟩
  · rfl
  dsimp only [bind, Except.bind]
  cases o.isSuccessful with
  | false => rfl
  | true => exact ofExcept_apply _ w₁

theorem check_congr {address : Address} (h : SameOutcomes (requests address) client w client' v) :
    (check client address w).1 = (check client' address v).1 := by
  rw [check_apply, check_apply]
  rcases address.child? with _ | ⟨kind, name⟩
  · rfl
  rcases hparent : address.parent? with _ | parent
  · rfl
  · dsimp only
    rw [h _ (by simp [requests, hparent])]

theorem read_of_check {address : Address} {e : Existence} (h : check client address w = (.ok e, w')) :
    ∃ op o, Client.execute client (.obj op) w = (.ok o, w') := by
  rw [check_apply] at h
  rcases hchild : address.child? with _ | ⟨kind, name⟩
  · rw [hchild] at h
    cases h
  rcases hparent : address.parent? with _ | parent
  · rw [hchild, hparent] at h
    cases h
  rw [hchild, hparent] at h
  obtain ⟨hread, hw'⟩ := Prod.mk.inj h
  rcases hx : Client.execute client (.obj (Operation.readResource parent false)) w with ⟨e | o, w₁⟩
  · rw [hx] at hread
    cases hread
  · rw [hx] at hw'
    obtain rfl : w₁ = w' := hw'
    exact ⟨_, o, hx⟩

end Existence

namespace Resource

variable {r : Resource} {base profile : Option String} {force : Bool}

theorem compose_congr (h : SameOutcomes (lookRequests r base profile) client w client' v) :
    (compose client r base profile force w).1 = (compose client' r base profile force v).1 := by
  unfold lookRequests at h
  unfold compose
  cases hplace : placeAt profile base r.address with
  | error e => rfl
  | ok placed =>
    obtain ⟨text, address⟩ := placed
    rw [hplace] at h
    have hlook := Existence.check_congr h
    rw [bind_of_ok (ofExcept_apply _ w), bind_of_ok (ofExcept_apply _ v)]
    dsimp only
    rw [bind_apply, bind_apply]
    rcases hw : Existence.check client address w with ⟨e, w₁⟩
    rcases hv : Existence.check client' address v with ⟨e', v₁⟩
    rw [hw, hv] at hlook
    obtain rfl : e = e' := hlook
    cases e with
    | error e => rfl
    | ok e =>
      dsimp only
      rw [ofExcept_apply, ofExcept_apply]

/-- After a resource was composed the client's next operation gets out. -/
theorem reaches_of_compose {composed : Composed}
    (h : compose client r base profile force w = (.ok composed, w')) : w'.Reaches client := by
  obtain ⟨text, segments, e, -, -, -, hcheck, -⟩ := known_of_compose h
  obtain ⟨op, o, hread⟩ := Existence.read_of_check hcheck
  exact Client.reaches_of_execute hread

variable {options : AddOptions} {t : Target} {ts : List Target} {b : Batch} {bs : List Batch}
  {fault : Option Fault}

theorem Course.of_dryRun (h : Course client options t w b fault w') (hdry : options.dryRun = true) :
    w' = (compose client t.1 options.base t.2 options.force w).2 ∧ b.status ≠ .committed := by
  cases h with
  | refused hcompose => exact ⟨by rw [hcompose], endBatch_uncommitted _ rfl⟩
  | skipped hcompose _ => exact ⟨by rw [hcompose], by simp⟩
  | planned hcompose _ _ => exact ⟨by rw [hcompose], by simp [composedBatch]⟩
  | hookFailed _ _ hsubmits _ =>
    rw [hdry] at hsubmits
    cases hsubmits
  | rejected _ _ hsubmits _ _ =>
    rw [hdry] at hsubmits
    cases hsubmits
  | unfinished _ _ hsubmits _ _ _ =>
    rw [hdry] at hsubmits
    cases hsubmits
  | committed _ _ hsubmits _ _ _ =>
    rw [hdry] at hsubmits
    cases hsubmits

/-- A dry run makes no calls but the looks for its targets. -/
theorem Courses.of_dryRun (h : Courses client options ts w bs fault w') (hdry : options.dryRun = true) :
    (∃ calls : List ClientCall, w.Follows (talkOf calls) w' ∧
      ∀ c ∈ calls, ∃ t ∈ ts, c.call ∈ lookRequests t.1 options.base t.2) ∧
    ∀ b ∈ bs, b.status ≠ .committed := by
  have looked {t : Target} {w w₁ : World σ} {b : Batch} {fault : Option Fault}
      (h : Course client options t w b fault w₁) : ∃ look : List ClientCall,
        w.Follows (talkOf look) w₁ ∧ ∀ c ∈ look, c.call ∈ lookRequests t.1 options.base t.2 := by
    obtain ⟨look, hf, hp⟩ := compose_performs client t.1 options.base t.2 options.force w
    rw [← (h.of_dryRun hdry).1] at hf
    exact ⟨look, hf, fun c hc => hp.begun.subset (List.mem_map_of_mem hc)⟩
  induction h with
  | nil w => exact ⟨⟨[], by simpa using .refl w, by simp⟩, by simp⟩
  | stop h =>
    obtain ⟨look, hf, hlook⟩ := looked h
    refine ⟨⟨look, hf, fun c hc => ⟨_, List.mem_cons_self, hlook c hc⟩⟩, ?_⟩
    simpa using (h.of_dryRun hdry).2
  | cons h _ ih =>
    obtain ⟨look, hf, hlook⟩ := looked h
    obtain ⟨⟨calls, hf', hcalls⟩, hstatus⟩ := ih
    refine ⟨⟨look ++ calls, by simpa using hf.trans hf', fun c hc => ?_⟩, ?_⟩
    · rcases List.mem_append.1 hc with hc | hc
      · exact ⟨_, List.mem_cons_self, hlook c hc⟩
      · obtain ⟨t, ht, hcall⟩ := hcalls c hc
        exact ⟨t, List.mem_cons_of_mem _ ht, hcall⟩
    · simpa using ⟨(h.of_dryRun hdry).2, hstatus⟩

/-- A target in a dry run from `w` and in one that submits from `v`: both are refused by the same fault of
composing, both skip it, or the steps that the one plans are those that the other submits next, or
cannot send. -/
inductive Foretold (client client' : Nat) (base : Option String) (force : Bool) (t : Target)
    (w v : World σ) : Batch → Option Fault → Batch → Option Fault → World σ → Prop
  | refused {b : Batch} {e : Fault} {w' v' : World σ}
      (hplans : compose client t.1 base t.2 force w = (.error e, w'))
      (hsubmits : compose client' t.1 base t.2 force v = (.error e, v')) :
      Foretold client client' base force t w v b (some e) b (some e) v'
  | skipped {b : Batch} {look : List ClientCall} {v' : World σ} (hs : b.status = .skipped)
      (hlook : look.map (·.call) = lookRequests t.1 base t.2) (hf : v.Follows (talkOf look) v') :
      Foretold client client' base force t w v b none b none v'
  | submitted {b b' : Batch} {fault : Option Fault} {look : List ClientCall} {c : ClientCall}
      {after : List ClientCall} {v' : World σ} (hs : b.status = .planned)
      (hfinite : Json.hasNonFinite.nonFiniteItem b.steps = false)
      (hlook : look.map (·.call) = lookRequests t.1 base t.2) (hc : c.call = b.submission)
      (hafter : after.map (·.call) <+: Hook.requests t.1.afterAdd)
      (hf : v.Follows (talkOf (look ++ [c] ++ after)) v') (hsteps : b'.steps = b.steps) :
      Foretold client client' base force t w v b none b' fault v'
  | unsendable {b : Batch} {look : List ClientCall} {v' : World σ} (hs : b.status = .planned)
      (hinfinite : Json.hasNonFinite.nonFiniteItem b.steps = true)
      (hlook : look.map (·.call) = lookRequests t.1 base t.2) (hf : v.Follows (talkOf look) v') :
      Foretold client client' base force t w v b none { b with status := .pending }
        (some (.value "Out of range float values are not JSON compliant")) v'

section Submission

variable {composed : Composed} {c : Composite}

theorem hasNonFinite_composed (hcompose : compose client r base profile force w = (.ok composed, w'))
    (hc : composed.composite = some c) :
    (Json.obj c.build).hasNonFinite = Json.hasNonFinite.nonFiniteItem c.steps := by
  obtain ⟨rollback, steps⟩ := c
  obtain rfl : rollback = true := (compose_ok hcompose).2 _ hc
  exact Composite.hasNonFinite_build steps

/-- The composite of a resource that was composed gets out if its steps can be written. -/
theorem executeRequired_composed (hcompose : compose client r base profile force w = (.ok composed, w'))
    (hc : composed.composite = some c) :
    (Json.hasNonFinite.nonFiniteItem c.steps = false → ∃ sent : ClientCall,
      sent.call = .operation (.obj c.build) ∧
        w'.Follows sent.talk (Client.executeRequired client (.obj c.build) w').2) ∧
    (Json.hasNonFinite.nonFiniteItem c.steps = true → Client.executeRequired client (.obj c.build) w' =
      (.error (.value "Out of range float values are not JSON compliant"), w')) := by
  have hreaches := reaches_of_compose hcompose
  have hwritten := hasNonFinite_composed hcompose hc
  rw [Client.executeRequired_apply, ← hwritten]
  refine ⟨fun hfinite => ?_, fun hinfinite => ?_⟩
  · obtain ⟨sent, hcall, hf, -⟩ := Client.execute_reaches hreaches hfinite
    exact ⟨sent, hcall, hf⟩
  · rw [Client.execute_nonFinite hreaches hinfinite]
    rfl

/-- A resource with a composite and without commands before it is submitted where composing has ended,
and what fails there ends its batch. -/
theorem Course.submits {v₁ : World σ} (h : Course client' options t v b fault v')
    (hdry : options.dryRun = false) (hidle : Hook.Idle t.1.beforeAdd)
    (hcompose : compose client' t.1 options.base t.2 options.force v = (.ok composed, v₁))
    (hc : composed.composite = some c) : ∃ result v₂, ∃ after : List ClientCall,
      Client.executeRequired client' (.obj c.build) v₁ = (result, v₂) ∧ v₂.Follows (talkOf after) v' ∧
        after.map (·.call) <+: Hook.requests t.1.afterAdd ∧ b.steps = c.steps ∧
        ∀ e, result = .error e →
          b = endBatch (composedBatch t composed.address c .pending) e ∧ fault = some e ∧ v' = v₂ := by
  -- composing has one result, and the hook without commands changes nothing
  have same {composed' : Composed} {c' : Composite} {u u' : World σ} {n : Nat}
      (hcompose' : compose client' t.1 options.base t.2 options.force v = (.ok composed', u))
      (hc' : composed'.composite = some c') (hbefore : Hook.run client' t.1.beforeAdd u = (.ok n, u')) :
      composed = composed' ∧ c = c' ∧ v₁ = u' := by
    obtain ⟨hcomposed, rfl⟩ := Prod.mk.inj (hcompose'.symm.trans hcompose)
    obtain rfl := Except.ok.inj hcomposed
    obtain rfl := Option.some.inj (hc'.symm.trans hc)
    rw [Hook.run_idle hidle] at hbefore
    exact ⟨rfl, rfl, (Prod.mk.inj hbefore).2⟩
  cases h with
  | refused hrefused =>
    rw [hcompose] at hrefused
    cases hrefused
  | skipped hskipped hnone =>
    rw [hcompose] at hskipped
    obtain rfl := Except.ok.inj (Prod.mk.inj hskipped).1
    rw [hc] at hnone
    cases hnone
  | planned _ _ hplans =>
    rw [hdry] at hplans
    cases hplans
  | hookFailed _ _ _ hbefore =>
    rw [Hook.run_idle hidle] at hbefore
    cases hbefore
  | rejected hcompose' hc' _ hbefore hsubmit =>
    obtain ⟨rfl, rfl, rfl⟩ := same hcompose' hc' hbefore
    refine ⟨_, _, [], hsubmit, .refl _, List.nil_prefix, (endBatch_record _ _).2.2, fun e he => ?_⟩
    obtain rfl := Except.error.inj he
    exact ⟨rfl, rfl, rfl⟩
  | unfinished hcompose' hc' _ hbefore hsubmit hafter =>
    obtain ⟨rfl, rfl, rfl⟩ := same hcompose' hc' hbefore
    obtain ⟨after, hf, hp⟩ := (Hook.run_performs client' t.1.afterAdd).of_eq hafter
    exact ⟨_, _, after, hsubmit, hf, hp.begun, (endBatch_record _ _).2.2, nofun⟩
  | committed hcompose' hc' _ hbefore hsubmit hafter =>
    obtain ⟨rfl, rfl, rfl⟩ := same hcompose' hc' hbefore
    obtain ⟨after, hf, hp⟩ := (Hook.run_performs client' t.1.afterAdd).of_eq hafter
    exact ⟨_, _, after, hsubmit, hf, hp.begun, rfl, nofun⟩

theorem Course.foretold {v₁ : World σ} (h : Course client' ⟨base, force, false⟩ t v b fault v')
    (hidle : Hook.Idle t.1.beforeAdd) (hcompose : compose client' t.1 base t.2 force v = (.ok composed, v₁))
    (hc : composed.composite = some c) :
    Foretold client client' base force t w v (composedBatch t composed.address c .planned) none b fault
      v' := by
  obtain ⟨look, hlooked, hp⟩ := (compose_performs client' t.1 base t.2 force).of_eq hcompose
  have hlook := (hp.done composed rfl).1
  have hsubmission := submission_composed hcompose hc .planned
  obtain ⟨hsent, hunsent⟩ := executeRequired_composed hcompose hc
  obtain ⟨result, v₂, after, hsubmit, hf, hafter, hsteps, hfailed⟩ := h.submits rfl hidle hcompose hc
  cases hfinite : Json.hasNonFinite.nonFiniteItem c.steps with
  | false =>
    obtain ⟨sent, hcall, hout⟩ := hsent hfinite
    rw [hsubmit] at hout
    refine .submitted rfl hfinite hlook (hcall.trans hsubmission.symm) hafter ?_ hsteps
    rw [talkOf_append, talkOf_append, talkOf_singleton]
    exact (hlooked.trans hout).trans hf
  | true =>
    rw [hunsent hfinite] at hsubmit
    obtain ⟨hresult, rfl⟩ := Prod.mk.inj hsubmit
    obtain ⟨rfl, rfl, rfl⟩ := hfailed _ hresult.symm
    exact .unsendable rfl hfinite hlook hlooked

end Submission

theorem addOne_foretold (t : Target) (force : Bool) (hidle : Hook.Idle t.1.beforeAdd)
    (hsame : SameOutcomes (lookRequests t.1 base t.2) client w client' v) :
    ∃ b fault w' b' fault' v',
      addOne client ⟨base, force, true⟩ t.1 t.2 w = (.ok (b, fault), w') ∧
      addOne client' ⟨base, force, false⟩ t.1 t.2 v = (.ok (b', fault'), v') ∧
      Foretold client client' base force t w v b fault b' fault' v' := by
  have hcomposed : (compose client t.1 base t.2 force w).1 = (compose client' t.1 base t.2 force v).1 :=
    compose_congr hsame
  rcases hw : compose client t.1 base t.2 force w with ⟨result, w₁⟩
  rcases hv : compose client' t.1 base t.2 force v with ⟨result', v₁⟩
  rw [hw, hv] at hcomposed
  obtain rfl : result = result' := hcomposed
  cases result with
  | error e =>
    exact ⟨_, _, _, _, _, _, addOne_refused ⟨base, force, true⟩ t hw,
      addOne_refused ⟨base, force, false⟩ t hv, .refused hw hv⟩
  | ok composed =>
    cases hc : composed.composite with
    | none =>
      obtain ⟨look, hlooked, hp⟩ := (compose_performs client' t.1 base t.2 force).of_eq hv
      exact ⟨_, _, _, _, _, _, addOne_skipped ⟨base, force, true⟩ t hw hc,
        addOne_skipped ⟨base, force, false⟩ t hv hc, .skipped rfl (hp.done composed rfl).1 hlooked⟩
    | some c =>
      obtain ⟨b', fault', v', hsubmits, hcourse⟩ := addOne_course client' ⟨base, force, false⟩ t v
      exact ⟨_, _, _, _, _, _, addOne_planned ⟨base, force, true⟩ t hw hc rfl, hsubmits,
        hcourse.foretold hidle hv hc⟩

/-- A dry run sends nothing but the listing of the profiles and the looks for its targets, and without a
fault all its batches are planned or skipped. -/
theorem addAll_looks (client : Nat) (hdry : options.dryRun = true) (profiles : List String)
    (resources : List Resource) (w : World σ) : ∃ bs fault w',
      addAll client options profiles resources w = (.ok (⟨bs, options.dryRun⟩, fault), w') ∧
      (∃ calls : List ClientCall, w.Follows (talkOf calls) w' ∧ ∀ c ∈ calls, c.call = listingRequest ∨
        ∃ t ∈ enumeration w client profiles resources, c.call ∈ lookRequests t.1 options.base t.2) ∧
      (fault = none → ∀ b ∈ bs, b.status = .planned ∨ b.status = .skipped) := by
  obtain ⟨bs, fault, w', hrun, hcases⟩ := addAll_cases client options profiles resources w
  refine ⟨bs, fault, w', hrun, ?_⟩
  obtain ⟨plan, hplan, hlists⟩ := chosenProfiles_performs client profiles w
  have listed {r : Except Fault (List (Option String))} {w₁ : World σ}
      (hc : chosenProfiles w client profiles w = (r, w₁)) : ∃ listing : List ClientCall,
        w.Follows (talkOf listing) w₁ ∧ ∀ c ∈ listing, c.call = listingRequest := by
    obtain ⟨listing, hf, hp⟩ := hlists.of_eq hc
    refine ⟨listing, hf, fun c hc => ?_⟩
    simpa using (hp.begun.trans hplan).subset (List.mem_map_of_mem hc)
  rcases hcases with ⟨e, hc, rfl, rfl⟩ | ⟨w₁, hstart, hcourses⟩
  · obtain ⟨listing, hf, hlisting⟩ := listed hc
    exact ⟨⟨listing, hf, fun c hc => .inl (hlisting c hc)⟩, by simp⟩
  obtain ⟨⟨looks, hf', hlooks⟩, hstatus⟩ := hcourses.of_dryRun hdry
  obtain ⟨listing, hf, hlisting⟩ : ∃ listing : List ClientCall,
      w.Follows (talkOf listing) w₁ ∧ ∀ c ∈ listing, c.call = listingRequest := by
    rcases hstart with rfl | ⟨chosen, hc⟩
    · exact ⟨[], by simpa using .refl w₁, by simp⟩
    · exact listed hc
  refine ⟨⟨listing ++ looks, by simpa using hf.trans hf', fun c hc => ?_⟩, fun hfault b hb => ?_⟩
  · exact (List.mem_append.1 hc).imp (hlisting c) (hlooks c)
  · rcases (hcourses.settled.2 hfault b hb).2 with hs | hs | ⟨hs, -⟩
    · exact absurd hs (hstatus b hb)
    · exact .inr hs
    · exact .inl hs

/-- A dry run sends nothing but the listing of the profiles and the looks for its targets, and without a
fault all its batches are planned or skipped. For a resource without commands to run before it is added,
what a target comes to in a dry run foretells what it comes to in a run that submits, from any world in
which the look has the same outcome. -/
theorem addAll_dryRun (client : Nat) (base : Option String) (force : Bool) (profiles : List String)
    (resources : List Resource) (w : World σ) :
    (∃ bs fault w',
      addAll client ⟨base, force, true⟩ profiles resources w = (.ok (⟨bs, true⟩, fault), w') ∧
      (∃ calls : List ClientCall, w.Follows (talkOf calls) w' ∧ ∀ c ∈ calls, c.call = listingRequest ∨
        ∃ t ∈ enumeration w client profiles resources, c.call ∈ lookRequests t.1 base t.2) ∧
      (fault = none → ∀ b ∈ bs, b.status = .planned ∨ b.status = .skipped)) ∧
    ∀ (r : Resource) (profile : Option String) (client' : Nat) (profiles' : List String)
      (w₁ v v₁ : World σ), Hook.Idle r.beforeAdd →
      SameOutcomes (lookRequests r base profile) client w₁ client' v₁ →
      ∃ b fault w' b' fault' v',
        addOne client ⟨base, force, true⟩ r profile w₁ = (.ok (b, fault), w') ∧
        addOne client' ⟨base, force, false⟩ r profile v₁ = (.ok (b', fault'), v') ∧
        Foretold client client' base force (r, profile) w₁ v₁ b fault b' fault' v' ∧
        (chosenProfiles w client profiles w = (.ok [profile], w₁) →
          addAll client ⟨base, force, true⟩ profiles [r] w = (.ok (⟨[b], true⟩, fault), w')) ∧
        (chosenProfiles v client' profiles' v = (.ok [profile], v₁) →
          addAll client' ⟨base, force, false⟩ profiles' [r] v = (.ok (⟨[b'], false⟩, fault'), v')) := by
  refine ⟨addAll_looks client rfl profiles resources w, ?_⟩
  intro r profile client' profiles' w₁ v v₁ hidle hsame
  obtain ⟨b, fault, w', b', fault', v', hplans, hsubmits, hforetold⟩ :=
    addOne_foretold (r, profile) force hidle hsame
  exact ⟨b, fault, w', b', fault', v', hplans, hsubmits, hforetold,
    fun hchosen => addAll_of_one hchosen hplans, fun hchosen => addAll_of_one hchosen hsubmits⟩

/-- A logger with a property that is no finite number. -/
def overflowing : Resource :=
  .mk (some "subsystem=logging,logger=a") [("ratio", .literal "1e999")] false false [] none none

def addingServer : World Script :=
  World.ready [.answer 200 (.json (.obj [("outcome", .str "success"), ("result", .obj [])])),
    .answer 200 (.json (.obj [("outcome", .str "success")]))]

/-- The dry run plans a step for the logger, and the run that submits sends no more than its look. -/
theorem addAll_dryRun_overflowing : ∃ (b : Batch) (w' v' : World Script) (look : List ClientCall),
    addAll 0 ⟨none, true, true⟩ [] [overflowing] addingServer = (.ok (⟨[b], true⟩, none), w') ∧
      b.status = .planned ∧
      addAll 0 ⟨none, true, false⟩ [] [overflowing] addingServer =
        (.ok (⟨[{ b with status := .pending }], false⟩,
          some (.value "Out of range float values are not JSON compliant")), v') ∧
      look.map (·.call) = lookRequests overflowing none none ∧ addingServer.Follows (talkOf look) v' := by
  have hplanned : (addAll 0 ⟨none, true, true⟩ [] [overflowing] addingServer).1.toOption.map (fun r =>
      (r.1.batches.map fun b => (b.status, Json.hasNonFinite.nonFiniteItem b.steps), r.2.isNone)) =
        some ([(.planned, true)], true) := by decide +kernel
  have hchosen : chosenProfiles addingServer 0 [] addingServer = (.ok [none], addingServer) := rfl
  obtain ⟨-, hforetells⟩ := addAll_dryRun 0 none true [] [overflowing] addingServer
  obtain ⟨b, fault, w', b', fault', v', -, -, hforetold, hplans, hsubmits⟩ :=
    hforetells overflowing none 0 [] addingServer addingServer addingServer nofun fun _ _ => rfl
  replace hplans := hplans hchosen
  replace hsubmits := hsubmits hchosen
  rw [hplans] at hplanned
  cases hforetold with
  | refused _ _ => simp [Except.toOption] at hplanned
  | skipped hs _ _ => simp [Except.toOption, hs] at hplanned
  | submitted _ hfinite _ _ _ _ _ => simp [Except.toOption, hfinite] at hplanned
  | unsendable hs _ hlook hf => exact ⟨b, w', v', _, hplans, hs, hsubmits, hlook, hf⟩

end Resource

end ServerDeploy
