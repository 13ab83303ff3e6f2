import ServerDeploy.Proofs.Resource.Batches
import ServerDeploy.Proofs.Resource.Endings
import ServerDeploy.Proofs.Resource.Outline
import ServerDeploy.Proofs.TypedLiteral.Spelling

/-! What the report of a run says about its end. An error meant for the operator is recorded in the
batch that it ended, which has failed unless it was committed; other faults leave a batch as it was. -/

namespace ServerDeploy

namespace Resource

open Address Operation

variable {σ : Type} [Endpoint σ] {client : Nat} {options : AddOptions}

/-- The fault is that of a part which comes before a batch is committed: composing the resource, the
first hook, or the submission of the steps that the batch records. -/
def FailsBefore (client : Nat) (options : AddOptions) (t : Target) (b : Batch) (e : Fault)
    (w' : World σ) : Prop :=
  (∃ w, compose client t.1 options.base t.2 options.force w = (.error e, w')) ∨
    (∃ w, Hook.run client t.1.beforeAdd w = (.error e, w')) ∨
      ∃ w, Client.executeRequired client (.obj (Composite.build ⟨true, b.steps⟩)) w = (.error e, w')

/-- The fault is that of the hook that follows a committed batch. -/
def FailsAfter (client : Nat) (t : Target) (e : Fault) (w' : World σ) : Prop :=
  ∃ w, Hook.run client t.1.afterAdd w = (.error e, w')

theorem failsBefore_of_submit {t : Target} {e : Fault} {composed : Composed} {c : Composite}
    {w w₁ w₂ w' : World σ}
    (hcompose : compose client t.1 options.base t.2 options.force w = (.ok composed, w₁))
    (hc : composed.composite = some c)
    (hsubmit : Client.executeRequired client (.obj c.build) w₂ = (.error e, w')) :
    FailsBefore client options t (endBatch (composedBatch t composed.address c .pending) e) e w' := by
  refine .inr (.inr ⟨w₂, ?_⟩)
  rw [(endBatch_record _ e).2.2, composedBatch, ← (compose_ok hcompose).2 c hc]
  exact hsubmit

/-- A batch that is ended was pending, or it was committed and its last hook was run. -/
theorem Course.stopped {t : Target} {w w' : World σ} {b : Batch} {e : Fault}
    (h : Course client options t w b (some e) w') : ∃ b₀, b = endBatch b₀ e ∧ b₀.error = none ∧
      (b₀.status = .pending ∧ FailsBefore client options t b e w' ∨
        b₀.status = .committed ∧ FailsAfter client t e w') := by
  cases h with
  | refused hcompose => exact ⟨_, rfl, rfl, .inl ⟨rfl, .inl ⟨_, hcompose⟩⟩⟩
  | hookFailed _ _ _ hbefore => exact ⟨_, rfl, rfl, .inl ⟨rfl, .inr (.inl ⟨_, hbefore⟩)⟩⟩
  | rejected hcompose hc _ _ hsubmit =>
    exact ⟨_, rfl, rfl, .inl ⟨rfl, failsBefore_of_submit hcompose hc hsubmit⟩⟩
  | unfinished _ _ _ _ _ hafter => exact ⟨_, rfl, rfl, .inr ⟨rfl, _, hafter⟩⟩

omit [Endpoint σ] in
theorem endBatch_of_ne {e : Fault} (b : Batch) (he : ∀ d, e ≠ .deploy d) : endBatch b e = b := by
  cases e with
  | deploy d => exact absurd rfl (he d)
  | _ => rfl

/-- The batch that an error ended has its text, and has failed unless it was committed. -/
theorem Course.recorded {t : Target} {w w' : World σ} {b : Batch} {d : DeployError}
    (h : Course client options t w b (some (.deploy d)) w') : b.error = some (errorText d) ∧
      (b.status = .failed ∧ FailsBefore client options t b (.deploy d) w' ∨
        b.status = .committed ∧ FailsAfter client t (.deploy d) w') := by
  obtain ⟨b₀, rfl, -, ⟨hs, hpart⟩ | ⟨hs, hpart⟩⟩ := h.stopped
  · exact ⟨rfl, .inl ⟨by simp [endBatch, hs], hpart⟩⟩
  · exact ⟨rfl, .inr ⟨by simp [endBatch, hs], hpart⟩⟩

/-- The batch that any other fault ended has no text, and is pending unless it was committed. -/
theorem Course.unrecorded {t : Target} {w w' : World σ} {b : Batch} {e : Fault}
    (h : Course client options t w b (some e) w') (he : ∀ d, e ≠ .deploy d) : b.error = none ∧
      (b.status = .pending ∧ FailsBefore client options t b e w' ∨
        b.status = .committed ∧ FailsAfter client t e w') := by
  obtain ⟨b₀, rfl, herror, hstatus⟩ := h.stopped
  rw [endBatch_of_ne b₀ he] at hstatus ⊢
  exact ⟨herror, hstatus⟩

/-- No batch is left pending, and the batch that a fault ended says why. -/
structure Accounts (bs : List Batch) (fault : Option Fault) : Prop where
  concluded : ∀ b ∈ bs, b.status ≠ .pending
  explained : fault ≠ none → ∀ b, bs.getLast? = some b → b.error ≠ none

theorem accounts_nil (fault : Option Fault) : Accounts [] fault := ⟨by simp, by simp⟩

omit [Endpoint σ] in
theorem Settled.concluded {b : Batch} (h : Settled options b) :
    b.status ≠ .pending ∧ b.status ≠ .failed := by
  rcases h.2 with hs | hs | ⟨hs, -⟩ <;> simp [hs]

variable {ts : List Target} {w w' : World σ} {bs : List Batch} {fault : Option Fault}

theorem Courses.settled_or_last (h : Courses client options ts w bs fault w') {b : Batch}
    (hb : b ∈ bs) : Settled options b ∨ bs.getLast? = some b := by
  by_cases hlast : some b = bs.getLast?
  · exact .inr hlast.symm
  · exact .inl (h.settled.1 b (List.mem_dropLast_of_mem_of_ne_getLast? hb hlast))

/-- A run accounts for its batches unless a fault ended it that is not meant for the operator. -/
theorem Courses.accounts (h : Courses client options ts w bs fault w') :
    Accounts bs fault ↔ ∀ e, fault = some e → ∃ d, e = .deploy d := by
  constructor
  · rintro haccounts e rfl
    obtain ⟨t, b, w₀, -, hlast, hcourse⟩ := h.ended
    by_contra hne
    exact haccounts.explained nofun b hlast (hcourse.unrecorded fun d hd => hne ⟨d, hd⟩).1
  · intro hdeploy
    cases hfault : fault with
    | none => exact ⟨fun b hb => (h.settled.2 hfault b hb).concluded.1, fun hnone => absurd rfl hnone⟩
    | some e =>
      obtain ⟨d, rfl⟩ := hdeploy e hfault
      subst hfault
      obtain ⟨t, b, w₀, -, hlast, hcourse⟩ := h.ended
      obtain ⟨herror, hstatus⟩ := hcourse.recorded
      refine ⟨fun b' hb' => ?_, fun _ b' hb' => ?_⟩
      · rcases h.settled_or_last hb' with hsettled | hb'
        · exact hsettled.concluded.1
        · obtain rfl : b = b' := Option.some.inj (hlast.symm.trans hb')
          rcases hstatus with ⟨hs, -⟩ | ⟨hs, -⟩ <;> simp [hs]
      · obtain rfl : b = b' := Option.some.inj (hlast.symm.trans hb')
        simp [herror]

/-- A run always gives its report. All batches but the last are settled, and without a fault the last
is too; one that an error ended has failed or was committed, and has the error's text. Any other fault
leaves a pending batch pending and none with a text, so the report accounts for its batches exactly
when the run was not ended by such a fault. A live client has no faults but those of a server. -/
theorem addAll_accounts (client : Nat) (options : AddOptions) (profiles : List String)
    (resources : List Resource) (w : World σ) : ∃ bs fault w',
      addAll client options profiles resources w = (.ok (⟨bs, options.dryRun⟩, fault), w') ∧
        (∀ b ∈ bs.dropLast, Settled options b) ∧ (fault = none → ∀ b ∈ bs, Settled options b) ∧
        (∀ e b, fault = some e → bs.getLast? = some b → ∃ t,
          ((enumeration w client profiles resources).zip bs).getLast? = some (t, b) ∧
          (∀ d, e = .deploy d → b.error = some (errorText d) ∧
            (b.status = .failed ∧ FailsBefore client options t b e w' ∨
              b.status = .committed ∧ FailsAfter client t e w')) ∧
          ((∀ d, e ≠ .deploy d) → b.error = none ∧
            (b.status = .pending ∧ FailsBefore client options t b e w' ∨
              b.status = .committed ∧ FailsAfter client t e w'))) ∧
        (Accounts bs fault ↔ ∀ e, bs ≠ [] → fault = some e → ∃ d, e = .deploy d) ∧
        (w.Live client → w.Predictable → ∀ e, fault = some e → e.In .server) := by
  obtain ⟨bs, fault, w', hrun, hcases⟩ := addAll_cases client options profiles resources w
  have hserved (hlive : w.Live client) (hw : w.Predictable) (e : Fault) (he : fault = some e) :
      e.In .server := by
    have hclosed := (closes_addAll options profiles resources).ended w (.refl hw hlive)
    rw [hrun] at hclosed
    exact hclosed.2 e he
  refine ⟨bs, fault, w', hrun, ?_⟩
  rcases hcases with ⟨e, -, rfl, rfl⟩ | ⟨w₁, -, hcourses⟩
  · exact ⟨by simp, by simp, by simp, ⟨by simp, fun _ => accounts_nil _⟩, hserved⟩
  refine ⟨hcourses.settled.1, hcourses.settled.2, fun e b he hb => ?_, ?_, hserved⟩
  · subst he
    obtain ⟨t, b', w₀, hzip, hlast, hcourse⟩ := hcourses.ended
    obtain rfl : b' = b := Option.some.inj (hlast.symm.trans hb)
    refine ⟨t, hzip, ?_, hcourse.unrecorded⟩
    rintro d rfl
    exact hcourse.recorded
  · rw [hcourses.accounts]
    refine ⟨fun h e _ => h e, fun h e he => h e ?_ he⟩
    subst he
    obtain ⟨t, b, w₀, -, hlast, -⟩ := hcourses.ended
    rintro rfl
    cases hlast

/-- A logger whose only property takes the name of the operation away. -/
def nameless : Resource :=
  .mk (some "subsystem=logging,logger=a") [("operation", .literal "undefined")] false false []
    none none

def namelessMessage : String :=
  "Invalid operation: \x7b'operation': None, " ++
    "'address': [\x7b'subsystem': 'logging'\x7d, \x7b'logger': 'a'\x7d]\x7d"

theorem composeKnown_nameless (text : String) :
    composeKnown nameless none false text (inProfile none loggerPlace) false =
      .error (.value namelessMessage) := by
  have hpath : propertyPath? "operation" = some [nameKey] := by decide
  have hliteral : TypedLiteral.parse "undefined" = .ok .null :=
    TypedLiteral.read_spelled TypedLiteral.Spells.null.tight
  have hproperties : rawProperties nameless = [("operation", .value (.literal "undefined"))] := rfl
  have hadd : Operation.addWith (inProfile none loggerPlace) (rawProperties nameless) =
      .ok [(nameKey, .null), (addressKey, (inProfile none loggerPlace).model)] := by
    simp only [Operation.addWith, hproperties, setProperties, Operation.setProperty, hpath,
      PropertyValue.ofRaw, PropertyValue.resolve, hliteral, Except.mapError]
    rfl
  have happend : appendNode none .empty text (inProfile none loggerPlace) nameless =
      .error (.value namelessMessage) := by
    unfold nameless at hadd ⊢
    unfold appendNode
    dsimp only
    rw [hadd]
    rfl
  change (appendNode none .empty text (inProfile none loggerPlace) nameless >>= fun c =>
    pure ⟨inProfile none loggerPlace, none, some c⟩) = _
  rw [happend]
  rfl

def unstarted : Batch := ⟨"subsystem=logging,logger=a", none, .pending, [], none⟩

/-- The step without a name is refused by a fault that leaves its batch pending. -/
theorem addAll_accounts_nameless : ∃ w', addAll 0 ⟨none, false, false⟩ [] [nameless]
    (World.ready ([.answer 200 (.json (.obj loggerAbsent))] : Script)) =
      (.ok (⟨[unstarted], false⟩, some (.value namelessMessage)), w') ∧
        ¬Accounts [unstarted] (some (.value namelessMessage)) := by
  obtain ⟨text, w', -, hcompose, -⟩ := compose_absent (r := nameless) rfl []
  rw [composeKnown_nameless] at hcompose
  have hone := addOne_refused ⟨none, false, false⟩ (nameless, none) hcompose
  have heval := addAll_single [] rfl hone
  obtain ⟨bs, fault, w₁, hrun, -, -, -, haccounts, -⟩ := addAll_accounts 0 ⟨none, false, false⟩ []
    [nameless] (World.ready ([.answer 200 (.json (.obj loggerAbsent))] : Script))
  rw [heval] at hrun
  obtain ⟨hbatches, rfl⟩ := Prod.mk.inj (Except.ok.inj (Prod.mk.inj hrun).1)
  obtain ⟨rfl, -⟩ := Report.mk.inj hbatches
  refine ⟨w', heval, fun h => ?_⟩
  obtain ⟨d, hd⟩ := haccounts.1 h _ nofun rfl
  cases hd

omit [Endpoint σ] in
theorem success_iff {r : Report} : r.success = true ↔ ∀ b ∈ r.batches, b.status ≠ .failed := by
  simp [Report.success, Report.failed, Report.withStatus]

/-- Only the last batch of a run can have failed. -/
theorem Courses.success_iff (h : Courses client options ts w bs fault w') (dryRun : Bool) {b : Batch}
    (hb : bs.getLast? = some b) :
    (⟨bs, dryRun⟩ : Report).success = true ↔ b.status ≠ .failed := by
  rw [Resource.success_iff]
  refine ⟨fun hall => hall b (List.mem_of_getLast? hb), fun hlast b' hb' => ?_⟩
  rcases h.settled_or_last hb' with hsettled | hb'
  · exact hsettled.concluded.2
  · obtain rfl : b = b' := Option.some.inj (hb.symm.trans hb')
    exact hlast

/-- The report of a run that an error ended is one of success exactly when the error came after the
last batch was committed, which keeps its text. No other batch of a successful report has an error. -/
theorem addAll_success (client : Nat) (options : AddOptions) (profiles : List String)
    (resources : List Resource) (w : World σ) : ∃ report fault w',
      addAll client options profiles resources w = (.ok (report, fault), w') ∧
        (∀ d b, fault = some (.deploy d) → report.batches.getLast? = some b →
          b.error = some (errorText d) ∧ ∃ t,
            ((enumeration w client profiles resources).zip report.batches).getLast? = some (t, b) ∧
            (report.success = false ∧ b.status = .failed ∧
                FailsBefore client options t b (.deploy d) w' ∨
              report.success = true ∧ b.status = .committed ∧ FailsAfter client t (.deploy d) w')) ∧
        (report.success = true → ∀ b ∈ report.batches, b.error ≠ none →
          report.batches.getLast? = some b ∧ b.status = .committed ∧
            ∃ d, fault = some (.deploy d) ∧ b.error = some (errorText d)) := by
  obtain ⟨bs, fault, w', hrun, hcases⟩ := addAll_cases client options profiles resources w
  refine ⟨_, fault, w', hrun, ?_⟩
  rcases hcases with ⟨e, -, rfl, rfl⟩ | ⟨w₁, -, hcourses⟩
  · exact ⟨by simp, by simp⟩
  refine ⟨?_, fun hsuccess b hb herror => ?_⟩
  · rintro d b rfl hb
    obtain ⟨t, b', w₀, hzip, hlast, hcourse⟩ := hcourses.ended
    obtain rfl : b' = b := Option.some.inj (hlast.symm.trans hb)
    have hsuccess := hcourses.success_iff options.dryRun hb
    obtain ⟨herror, ⟨hs, hpart⟩ | ⟨hs, hpart⟩⟩ := hcourse.recorded
    · exact ⟨herror, t, hzip, .inl ⟨by simpa [hs] using hsuccess, hs, hpart⟩⟩
    · exact ⟨herror, t, hzip, .inr ⟨by simpa [hs] using hsuccess, hs, hpart⟩⟩
  · have hb : bs.getLast? = some b :=
      (hcourses.settled_or_last hb).resolve_left fun hsettled => herror hsettled.1
    refine ⟨hb, ?_⟩
    cases hfault : fault with
    | none => exact absurd (hcourses.settled.2 hfault b (List.mem_of_getLast? hb)).1 herror
    | some e =>
      subst hfault
      obtain ⟨t, b', w₀, -, hlast, hcourse⟩ := hcourses.ended
      obtain rfl : b' = b := Option.some.inj (hlast.symm.trans hb)
      by_cases he : ∃ d, e = .deploy d
      · obtain ⟨d, rfl⟩ := he
        obtain ⟨htext, ⟨hs, -⟩ | ⟨hs, -⟩⟩ := hcourse.recorded
        · exact absurd hs ((hcourses.success_iff _ hb).1 hsuccess)
        · exact ⟨hs, d, rfl, htext⟩
      · exact absurd (hcourse.unrecorded fun d hd => he ⟨d, hd⟩).1 herror

/-- A logger that is to be fixed by a command once it has been added. -/
def fixing : Resource :=
  .mk (some "subsystem=logging,logger=a") [] false false [] none
    (some ⟨["/subsystem=logging:fix"], false⟩)

def loggerStep : Json := .obj (Operation.add (inProfile none loggerPlace))

def loggerAdded : Outcome := [("outcome", .str "success")]

def fixRefused : Outcome :=
  [("outcome", .str "failed"), ("failure-description", .str "WFLYCTL0216: not found")]

def fixFault : DeployError :=
  .operationFailed "Operation failed: WFLYCTL0216: not found" (.str "WFLYCTL0216: not found")

def loggerBatch : Batch :=
  ⟨"/subsystem=logging/logger=a", none, .committed, [loggerStep], some "WFLYCTL0216: not found"⟩

def fixOperation : Operation := Operation.make "fix" (inProfile none [("subsystem", "logging")]) []

theorem read_fix : Hook.operations ["/subsystem=logging:fix"] = .ok [fixOperation] := by rfl

/-- The command comes after the batch was committed, and its error does not count. -/
theorem addAll_success_fixing : ∃ w', addAll 0 ⟨none, false, false⟩ [] [fixing]
    (World.ready ([.answer 200 (.json (.obj loggerAbsent)), .answer 200 (.json (.obj loggerAdded)),
      .answer 200 (.json (.obj fixRefused))] : Script)) =
        (.ok (⟨[loggerBatch], false⟩, some (.deploy fixFault)), w') ∧
      loggerBatch.error = some "WFLYCTL0216: not found" ∧
      (⟨[loggerBatch], false⟩ : Report).success = true := by
  obtain ⟨text, w₁, hwrites, hcompose, hendpoint, hfresh⟩ := compose_absent (r := fixing) rfl
    [.answer 200 (.json (.obj loggerAdded)), .answer 200 (.json (.obj fixRefused))]
  have hexpand : expand? none loggerPlace fixing = some [loggerStep] := by
    rw [fixing, expand?, expandAll?]
    rfl
  have hnew : false = true → fixing.addIfAbsent = false ∧ false = true := by simp
  rw [composeKnown_of_expand hwrites hnew hexpand] at hcompose
  obtain ⟨w₂, hsubmit, hendpoint₂, hfresh₂⟩ := Client.execute_fresh (o := loggerAdded)
    (Composite.build ⟨true, [loggerStep]⟩) hfresh rfl (fun _ => by rw [hendpoint]; rfl) rfl
  obtain ⟨w₃, hfix, -⟩ := Client.execute_fresh (o := fixRefused) fixOperation hfresh₂ rfl
    (fun _ => by rw [hendpoint₂]; rfl) rfl
  have hone := addOne_submitted ⟨none, false, false⟩ (fixing, none) hcompose rfl rfl rfl
    (Client.executeRequired_of_result hsubmit)
  have hafter : Hook.run 0 fixing.afterAdd w₂ = (.error (.deploy fixFault), w₃) := by
    change (Run.ofExcept (Hook.operations ["/subsystem=logging:fix"]) >>= fun ops => do
      Hook.executeEach 0 ops
      pure ops.length) w₂ = _
    rw [read_fix, Run.bind_of_ok (Run.ofExcept_apply _ w₂), Run.bind_apply]
    unfold Hook.executeEach
    rw [Run.bind_apply, Client.executeRequired_of_result hfix]
    rfl
  rw [during_apply, hafter] at hone
  exact ⟨w₃, addAll_single [] rfl hone, rfl, rfl⟩

end Resource

end ServerDeploy
