import Mathlib.Data.List.Forall2
import ServerDeploy.Proofs.Resource.Course
import ServerDeploy.Proofs.Session.Lapsing

/-! What a run leaves behind. Its report is a prefix of the resources and profiles it was given, all
settled but perhaps the last, and the composites that were submitted are those of the report. -/

namespace ServerDeploy

def Batch.submission (b : Batch) : Call :=
  .operation (.obj (Composite.build ⟨true, b.steps⟩))

namespace Resource

structure BatchTalk where
  look : List ClientCall
  before : List ClientCall
  submitted : List ClientCall
  after : List ClientCall

def BatchTalk.all (l : BatchTalk) : List ClientCall := l.look ++ l.before ++ l.submitted ++ l.after

/-- A batch is for a target: its profile is that of the target, and its address the one the resource
goes to, or the one given when that cannot be told. -/
def IsFor (options : AddOptions) (t : Target) (b : Batch) : Prop :=
  b.profile = t.2 ∧ (b.address = (startBatch options t).address ∨
    ∃ text address, placeAt t.2 options.base t.1.address = .ok (text, address) ∧
      b.address = address.text)

def Settled (options : AddOptions) (b : Batch) : Prop :=
  b.error = none ∧ (b.status = .committed ∨ b.status = .skipped ∨
    b.status = .planned ∧ options.dryRun = true)

/-- The calls for a batch are what its target and its record say. -/
structure Tells (options : AddOptions) (t : Target) (b : Batch) (l : BatchTalk) : Prop where
  look : l.look.map (·.call) <+: lookRequests t.1 options.base t.2
  before : l.before.map (·.call) <+: Hook.requests t.1.beforeAdd
  after : l.after.map (·.call) <+: Hook.requests t.1.afterAdd
  committed : b.status = .committed → l.submitted.map (·.call) = [b.submission]
  uncommitted : b.status ≠ .committed → l.submitted.map (·.call) <+: [b.submission] ∧ l.after = []
  unsubmitted : b.status = .skipped ∨ b.status = .planned → l.before = [] ∧ l.submitted = []

theorem endBatch_record (b : Batch) (fault : Fault) :
    (endBatch b fault).address = b.address ∧ (endBatch b fault).profile = b.profile ∧
      (endBatch b fault).steps = b.steps := by
  cases fault <;> exact ⟨rfl, rfl, rfl⟩

theorem endBatch_committed {b : Batch} (fault : Fault) (h : b.status = .committed) :
    (endBatch b fault).status = .committed := by
  cases fault <;> simp [endBatch, h]

theorem endBatch_pending {b : Batch} (fault : Fault) (h : b.status = .pending) :
    (endBatch b fault).status = .failed ∨ (endBatch b fault).status = .pending := by
  cases fault <;> simp [endBatch, h]

theorem endBatch_uncommitted {b : Batch} (fault : Fault) (h : b.status = .pending) :
    (endBatch b fault).status ≠ .committed := by
  rcases endBatch_pending fault h with hs | hs <;> simp [hs]

theorem endBatch_unconcluded {b : Batch} (fault : Fault) (h : b.status = .pending) :
    ¬((endBatch b fault).status = .skipped ∨ (endBatch b fault).status = .planned) := by
  rcases endBatch_pending fault h with hs | hs <;> simp [hs]

variable {σ : Type} [Endpoint σ] {client : Nat} {options : AddOptions}

theorem Course.isFor {t : Target} {w w' : World σ} {b : Batch} {fault : Option Fault}
    (h : Course client options t w b fault w') : IsFor options t b := by
  have composedAt {w w₁ : World σ} {composed : Composed} (address : String)
      (hcompose : compose client t.1 options.base t.2 options.force w = (.ok composed, w₁))
      (haddress : address = composed.address.text) : ∃ text address',
        placeAt t.2 options.base t.1.address = .ok (text, address') ∧ address = address'.text := by
    obtain ⟨⟨text, hplace⟩, -⟩ := compose_ok hcompose
    exact ⟨text, _, hplace, haddress⟩
  cases h with
  | refused _ =>
    obtain ⟨ha, hp, -⟩ := endBatch_record (startBatch options t) _
    exact ⟨hp, .inl ha⟩
  | skipped hcompose _ => exact ⟨rfl, .inr (composedAt _ hcompose rfl)⟩
  | planned hcompose _ _ => exact ⟨rfl, .inr (composedAt _ hcompose rfl)⟩
  | committed hcompose _ _ _ _ _ => exact ⟨rfl, .inr (composedAt _ hcompose rfl)⟩
  | hookFailed hcompose _ _ _ =>
    obtain ⟨ha, hp, -⟩ := endBatch_record (composedBatch t _ _ .pending) _
    exact ⟨hp, .inr (composedAt _ hcompose ha)⟩
  | rejected hcompose _ _ _ _ =>
    obtain ⟨ha, hp, -⟩ := endBatch_record (composedBatch t _ _ .pending) _
    exact ⟨hp, .inr (composedAt _ hcompose ha)⟩
  | unfinished hcompose _ _ _ _ _ =>
    obtain ⟨ha, hp, -⟩ := endBatch_record (composedBatch t _ _ .committed) _
    exact ⟨hp, .inr (composedAt _ hcompose ha)⟩

theorem Course.settled {t : Target} {w w' : World σ} {b : Batch}
    (h : Course client options t w b none w') : Settled options b := by
  cases h with
  | skipped _ _ => exact ⟨rfl, .inr (.inl rfl)⟩
  | planned _ _ hdry => exact ⟨rfl, .inr (.inr ⟨rfl, hdry⟩)⟩
  | committed _ _ _ _ _ _ => exact ⟨rfl, .inl rfl⟩

theorem Course.raised {t : Target} {w w' : World σ} {b : Batch} {e : DeployError}
    (h : Course client options t w b (some (.deploy e)) w') :
    b.error = some (errorText e) ∧ (b.status = .failed ∨ b.status = .committed ∧
      ∃ w₁, Hook.run client t.1.afterAdd w₁ = (.error (.deploy e), w')) := by
  cases h with
  | refused _ => exact ⟨rfl, .inl rfl⟩
  | hookFailed _ _ _ _ => exact ⟨rfl, .inl rfl⟩
  | rejected _ _ _ _ _ => exact ⟨rfl, .inl rfl⟩
  | unfinished _ _ _ _ _ hafter => exact ⟨rfl, .inr ⟨rfl, _, hafter⟩⟩

/-- The calls of a batch were made one after the success of the other, and without a fault all
succeeded. -/
structure Orderly (fault : Option Fault) (calls : List ClientCall) : Prop where
  successes : ∀ c ∈ calls.dropLast, c.Succeeded
  done : fault = none → ∀ c ∈ calls, c.Succeeded

theorem Orderly.append {fault : Option Fault} {xs ys : List ClientCall} (h : Orderly none xs)
    (h' : Orderly fault ys) : Orderly fault (xs ++ ys) where
  successes c hc := by
    rcases mem_dropLast_append hc with hc | hc
    · exact h.done rfl c hc
    · exact h'.successes c hc
  done hfault c hc := by
    rcases List.mem_append.1 hc with hc | hc
    · exact h.done rfl c hc
    · exact h'.done hfault c hc

theorem orderly_of_ok {α : Type} {plan : List Call} {v : α} {calls : List ClientCall}
    (h : Performs plan (.ok v) calls) (fault : Option Fault) : Orderly fault calls :=
  ⟨h.successes, fun _ => (h.done v rfl).2⟩

theorem orderly_of_error {α : Type} {plan : List Call} {e : Fault} {calls : List ClientCall}
    (h : Performs plan (.error e : Except Fault α) calls) (fault : Fault) :
    Orderly (some fault) calls := ⟨h.successes, by simp⟩

theorem submission_composed {base : Option String} {force : Bool} {w w' : World σ} {t : Target}
    {composed : Composed} {c : Composite}
    (hcompose : compose client t.1 base t.2 force w = (.ok composed, w'))
    (hc : composed.composite = some c) (status : BatchStatus) :
    (composedBatch t composed.address c status).submission = .operation (.obj c.build) := by
  obtain ⟨-, hroll⟩ := compose_ok hcompose
  obtain ⟨rollback, steps⟩ := c
  obtain rfl : rollback = true := hroll _ hc
  rfl

theorem submission_endBatch (b : Batch) (fault : Fault) :
    (endBatch b fault).submission = b.submission := by
  unfold Batch.submission
  rw [(endBatch_record b fault).2.2]

theorem tells_unsent {t : Target} {b : Batch} {look before : List ClientCall}
    (hlook : look.map (·.call) <+: lookRequests t.1 options.base t.2)
    (hbefore : before.map (·.call) <+: Hook.requests t.1.beforeAdd) (hs : b.status ≠ .committed)
    (hidle : b.status = .skipped ∨ b.status = .planned → before = []) :
    Tells options t b ⟨look, before, [], []⟩ where
  look := hlook
  before := hbefore
  after := by simp
  committed h := absurd h hs
  uncommitted _ := ⟨by simp, rfl⟩
  unsubmitted h := ⟨hidle h, rfl⟩

theorem tells_committed {t : Target} {b : Batch} {look before submitted after : List ClientCall}
    (hlook : look.map (·.call) <+: lookRequests t.1 options.base t.2)
    (hbefore : before.map (·.call) <+: Hook.requests t.1.beforeAdd)
    (hsubmitted : submitted.map (·.call) = [b.submission])
    (hafter : after.map (·.call) <+: Hook.requests t.1.afterAdd) (hs : b.status = .committed) :
    Tells options t b ⟨look, before, submitted, after⟩ where
  look := hlook
  before := hbefore
  after := hafter
  committed _ := hsubmitted
  uncommitted h := absurd hs h
  unsubmitted h := by simp [hs] at h

/-- What is said for a batch is said for its look, its hooks and its composite, in that order, and the
batch is committed exactly when its composite has succeeded. -/
theorem Course.talk {t : Target} {w w' : World σ} {b : Batch} {fault : Option Fault}
    (h : Course client options t w b fault w') : ∃ l : BatchTalk,
      w.Follows (talkOf l.all) w' ∧ Tells options t b l ∧ Orderly fault l.all ∧
        (b.status = .committed ↔ ∃ c ∈ l.submitted, c.Succeeded) := by
  have said {w w₁ : World σ} {r : Except Fault Composed}
      (hcompose : compose client t.1 options.base t.2 options.force w = (r, w₁)) :=
    (compose_performs client t.1 options.base t.2 options.force).of_eq hcompose
  have sent {w w₁ : World σ} {c : Composite} {r : Except Fault Outcome}
      (hsubmit : Client.executeRequired client (.obj c.build) w = (r, w₁)) :=
    (Client.executeRequired_settles client (.obj c.build)).of_eq hsubmit
  -- one case for each way a batch can go: what was said in the parts it came to is joined in order
  cases h with
  | @refused _ fault hcompose =>
    obtain ⟨look, hf, hp⟩ := said hcompose
    have huncommitted := endBatch_uncommitted (b := startBatch options t) fault rfl
    refine ⟨⟨look, [], [], []⟩, by simpa [BatchTalk.all] using hf,
      tells_unsent hp.begun (by simp) huncommitted fun _ => rfl,
      by simpa [BatchTalk.all] using orderly_of_error hp _, iff_of_false huncommitted (by simp)⟩
  | skipped hcompose hnone =>
    obtain ⟨look, hf, hp⟩ := said hcompose
    refine ⟨⟨look, [], [], []⟩, by simpa [BatchTalk.all] using hf, ?_,
      by simpa [BatchTalk.all] using orderly_of_ok hp _, by simp⟩
    exact tells_unsent hp.begun (by simp) (by simp) fun _ => rfl
  | planned hcompose hc hdry =>
    obtain ⟨look, hf, hp⟩ := said hcompose
    refine ⟨⟨look, [], [], []⟩, by simpa [BatchTalk.all] using hf, ?_,
      by simpa [BatchTalk.all] using orderly_of_ok hp _, by simp [composedBatch]⟩
    exact tells_unsent hp.begun (by simp) (by simp [composedBatch]) fun _ => rfl
  | @hookFailed _ _ composed c fault hcompose hc hdry hbefore =>
    obtain ⟨look, hf, hp⟩ := said hcompose
    obtain ⟨before, hf₁, hp₁⟩ := (Hook.run_performs client t.1.beforeAdd).of_eq hbefore
    let b := composedBatch t composed.address c .pending
    have huncommitted := endBatch_uncommitted (b := b) fault rfl
    have hunconcluded := endBatch_unconcluded (b := b) fault rfl
    exact ⟨⟨look, before, [], []⟩, by simpa [BatchTalk.all] using hf.trans hf₁,
      tells_unsent hp.begun hp₁.begun huncommitted fun h => absurd h hunconcluded,
      by simpa [BatchTalk.all] using orderly_of_error (hp.append hp₁) _,
      iff_of_false huncommitted (by simp)⟩
  | @rejected _ _ _ composed c _ fault hcompose hc hdry hbefore hsubmit =>
    obtain ⟨look, hf, hp⟩ := said hcompose
    obtain ⟨before, hf₁, hp₁⟩ := (Hook.run_performs client t.1.beforeAdd).of_eq hbefore
    obtain ⟨submitted, hf₂, hp₂, hsettled⟩ := sent hsubmit
    let b := composedBatch t composed.address c .pending
    have huncommitted := endBatch_uncommitted (b := b) fault rfl
    have hunconcluded := endBatch_unconcluded (b := b) fault rfl
    have hsubmitted : submitted.map (·.call) <+: [(endBatch b fault).submission] := by
      rw [submission_endBatch, submission_composed hcompose hc .pending]
      exact hp₂.begun
    exact ⟨⟨look, before, submitted, []⟩,
      by simpa [BatchTalk.all] using (hf.trans hf₁).trans hf₂,
      ⟨hp.begun, hp₁.begun, by simp, fun h => absurd h huncommitted, fun _ => ⟨hsubmitted, rfl⟩,
        fun h => absurd h hunconcluded⟩,
      by simpa [BatchTalk.all] using orderly_of_error ((hp.append hp₁).append hp₂) _,
      iff_of_false huncommitted fun hc => nomatch hsettled.2 hc⟩
  | @unfinished _ _ _ _ composed c _ _ fault hcompose hc hdry hbefore hsubmit hafter =>
    obtain ⟨look, hf, hp⟩ := said hcompose
    obtain ⟨before, hf₁, hp₁⟩ := (Hook.run_performs client t.1.beforeAdd).of_eq hbefore
    obtain ⟨submitted, hf₂, hp₂, hsettled⟩ := sent hsubmit
    obtain ⟨after, hf₃, hp₃⟩ := (Hook.run_performs client t.1.afterAdd).of_eq hafter
    have hcommitted := endBatch_committed (b := composedBatch t composed.address c .committed) fault rfl
    refine ⟨⟨look, before, submitted, after⟩,
      by simpa [BatchTalk.all] using ((hf.trans hf₁).trans hf₂).trans hf₃, ?_,
      orderly_of_error (((hp.append hp₁).append hp₂).append hp₃) _,
      iff_of_true hcommitted (hsettled.1 ⟨_, rfl⟩)⟩
    refine tells_committed hp.begun hp₁.begun ?_ hp₃.begun hcommitted
    rw [submission_endBatch, submission_composed hcompose hc]
    exact (hp₂.done _ rfl).1
  | committed hcompose hc hdry hbefore hsubmit hafter =>
    obtain ⟨look, hf, hp⟩ := said hcompose
    obtain ⟨before, hf₁, hp₁⟩ := (Hook.run_performs client t.1.beforeAdd).of_eq hbefore
    obtain ⟨submitted, hf₂, hp₂, hsettled⟩ := sent hsubmit
    obtain ⟨after, hf₃, hp₃⟩ := (Hook.run_performs client t.1.afterAdd).of_eq hafter
    refine ⟨⟨look, before, submitted, after⟩,
      by simpa [BatchTalk.all] using ((hf.trans hf₁).trans hf₂).trans hf₃, ?_,
      orderly_of_ok (((hp.append hp₁).append hp₂).append hp₃) _,
      iff_of_true rfl (hsettled.1 ⟨_, rfl⟩)⟩
    refine tells_committed hp.begun hp₁.begun ?_ hp₃.begun rfl
    rw [submission_composed hcompose hc]
    exact (hp₂.done _ rfl).1

variable {ts : List Target} {w w' : World σ} {bs : List Batch} {fault : Option Fault}

theorem Courses.enumerated (h : Courses client options ts w bs fault w') : ∃ done, done <+: ts ∧
    List.Forall₂ (IsFor options) done bs ∧ (fault = none → done = ts) := by
  induction h with
  | nil w => exact ⟨[], by simp, .nil, fun _ => rfl⟩
  | stop h => exact ⟨[_], by simp, .cons h.isFor .nil, by simp⟩
  | cons h _ ih =>
    obtain ⟨done, hdone, hfor, hall⟩ := ih
    refine ⟨_ :: done, by simpa using hdone, .cons h.isFor hfor, fun hf => ?_⟩
    rw [hall hf]

theorem Courses.settled (h : Courses client options ts w bs fault w') :
    (∀ b ∈ bs.dropLast, Settled options b) ∧ (fault = none → ∀ b ∈ bs, Settled options b) := by
  induction h with
  | nil w => simp
  | stop h => simp
  | @cons t rest w w₁ w' b bs fault h hrest ih =>
    refine ⟨fun b' hb' => ?_, fun hf b' hb' => ?_⟩
    · rcases mem_dropLast_append (show b' ∈ ([b] ++ bs).dropLast from hb') with hb' | hb'
      · rw [List.mem_singleton.1 hb']
        exact h.settled
      · exact ih.1 b' hb'
    · rcases List.mem_cons.1 hb' with rfl | hb'
      · exact h.settled
      · exact ih.2 hf b' hb'

theorem Courses.ended {e : Fault} (h : Courses client options ts w bs (some e) w') :
    ∃ t b w₀, (ts.zip bs).getLast? = some (t, b) ∧ bs.getLast? = some b ∧
      Course client options t w₀ b (some e) w' := by
  generalize hfault : some e = fault at h
  induction h with
  | nil w => cases hfault
  | @stop t rest w w' b fault h =>
    cases hfault
    exact ⟨t, b, w, by simp, rfl, h⟩
  | cons h hrest ih =>
    obtain ⟨t, b, w₀, hzip, hlast, hcourse⟩ := ih hfault
    exact ⟨t, b, w₀, by simp [List.getLast?_cons, hzip], by simp [List.getLast?_cons, hlast], hcourse⟩

/-- The committed batches submitted their composites, and perhaps the last batch too. -/
def Submits (bs : List Batch) (fault : Option Fault) (submitted : List Call) : Prop :=
  ∃ last, submitted = (bs.filter fun b => b.status == .committed).map Batch.submission ++ last ∧
    (last = [] ∨ ∃ b, bs.getLast? = some b ∧ b.status ≠ .committed ∧ fault ≠ none ∧
      last = [b.submission])

theorem Courses.talk (h : Courses client options ts w bs fault w') : ∃ talks : List BatchTalk,
    w.Follows (talkOf (talks.flatMap BatchTalk.all)) w' ∧
      Orderly fault (talks.flatMap BatchTalk.all) ∧
      List.Forall₂ (fun tb l => Tells options tb.1 tb.2 l) (ts.zip bs) talks ∧
      Submits bs fault ((talks.flatMap (·.submitted)).map (·.call)) := by
  induction h with
  | nil w => exact ⟨[], by simpa using .refl w, ⟨by simp, by simp⟩, .nil, [], by simp⟩
  | @stop t rest w w' b e h =>
    obtain ⟨l, hf, htells, ho, -⟩ := h.talk
    refine ⟨[l], by simpa using hf, by simpa using ho, by simpa using htells, ?_⟩
    -- only the last batch can have submitted a composite without being committed
    by_cases hs : b.status = .committed
    · exact ⟨[], by simp [hs, htells.committed hs]⟩
    · refine ⟨l.submitted.map (·.call), by simp [hs], ?_⟩
      rcases List.prefix_cons_iff.1 (htells.uncommitted hs).1 with hnone | ⟨rest, hone, hrest⟩
      · exact .inl hnone
      · exact .inr ⟨b, rfl, hs, by simp, by rw [hone, List.prefix_nil.1 hrest]⟩
  | @cons t rest w w₁ w' b bs fault h hrest ih =>
    obtain ⟨l, hf, htells, ho, -⟩ := h.talk
    obtain ⟨talks, hf', ho', htells', last, hsub, hlast⟩ := ih
    refine ⟨l :: talks, by simpa using hf.trans hf', by simpa using ho.append ho',
      .cons htells htells', last, ?_, ?_⟩
    · rw [List.flatMap_cons, List.map_append, hsub]
      rcases h.settled.2 with hs | hs | ⟨hs, -⟩
      · simp [hs, htells.committed hs]
      · simp [hs, (htells.unsubmitted (.inl hs)).2]
      · simp [hs, (htells.unsubmitted (.inr hs)).2]
    · rcases hlast with hnone | ⟨b', hb', hs, hfault, hone⟩
      · exact .inl hnone
      · exact .inr ⟨b', by simp [List.getLast?_cons, hb'], hs, hfault, hone⟩

/-- What a run leaves behind: its batches, the fault that ended it, and what it said. -/
structure Recorded (client : Nat) (options : AddOptions) (enumeration : List Target) (w : World σ)
    (bs : List Batch) (fault : Option Fault) (w' : World σ) : Prop where
  enumerated : ∃ done, done <+: enumeration ∧ List.Forall₂ (IsFor options) done bs ∧
    (fault = none → done = enumeration)
  settled : ∀ b ∈ bs.dropLast, Settled options b
  returned : fault = none → ∀ b ∈ bs, Settled options b
  raised : ∀ e b, fault = some (.deploy e) → bs.getLast? = some b →
    b.error = some (errorText e) ∧ (b.status = .failed ∨ b.status = .committed ∧
      ∃ t w₁, (enumeration.zip bs).getLast? = some (t, b) ∧
        Hook.run client t.1.afterAdd w₁ = (.error (.deploy e), w'))
  talk : ∃ (listing : List ClientCall) (talks : List BatchTalk),
    w.Follows (talkOf (listing ++ talks.flatMap BatchTalk.all)) w' ∧
      listing.map (·.call) <+: [listingRequest] ∧
      Orderly fault (listing ++ talks.flatMap BatchTalk.all) ∧
      List.Forall₂ (fun tb l => Tells options tb.1 tb.2 l) (enumeration.zip bs) talks ∧
      Submits bs fault ((talks.flatMap (·.submitted)).map (·.call))

theorem Courses.recorded {w₁ : World σ} (h : Courses client options ts w₁ bs fault w')
    (listing : List ClientCall) (hf : w.Follows (talkOf listing) w₁)
    (hlisting : listing.map (·.call) <+: [listingRequest]) (ho : Orderly none listing) :
    Recorded client options ts w bs fault w' where
  enumerated := h.enumerated
  settled := h.settled.1
  returned := h.settled.2
  raised e b hfault hb := by
    subst hfault
    obtain ⟨t, b', w₀, hzip, hlast, hcourse⟩ := h.ended
    obtain rfl : b' = b := by simpa [hb] using hlast.symm
    obtain ⟨herror, hstatus⟩ := hcourse.raised
    refine ⟨herror, hstatus.imp_right fun ⟨hs, w₂, hrun⟩ => ⟨hs, t, w₂, hzip, hrun⟩⟩
  talk := by
    obtain ⟨talks, hf', ho', htells, hsub⟩ := h.talk
    exact ⟨listing, talks, by simpa using hf.trans hf', hlisting, ho.append ho', htells, hsub⟩

theorem recorded_nothing (listing : List ClientCall) {e : Fault} (hf : w.Follows (talkOf listing) w')
    (hlisting : listing.map (·.call) <+: [listingRequest]) (ho : Orderly (some e) listing) :
    Recorded client options ts w [] (some e) w' where
  enumerated := ⟨[], by simp, .nil, by simp⟩
  settled := by simp
  returned := by simp
  raised := by simp
  talk := ⟨listing, [], by simpa using hf, hlisting, by simpa using ho, by simp, [], by simp⟩

def isDomain (w : World σ) (client : Nat) : Bool := (w.clients[client]?.getD default).isDomain

/-- The resources in order, each with all profiles in order, or with none on a standalone server. -/
def enumeration (w : World σ) (client : Nat) (profiles : List String) (resources : List Resource) :
    List Target :=
  targets resources (if isDomain w client then profiles.map some else [none])

def chosenProfiles (w : World σ) (client : Nat) (profiles : List String) :
    Run σ (List (Option String)) :=
  if isDomain w client then domainProfiles client profiles else pure [none]

theorem addAll_of_refused {profiles : List String} {r : Resource} {rs : List Resource} {e : Fault}
    (h : chosenProfiles w client profiles w = (.error e, w')) :
    addAll client options profiles (r :: rs) w = (.ok (⟨[], options.dryRun⟩, some e), w') := by
  unfold addAll
  simp only [List.isEmpty_cons, Bool.false_eq_true, if_false]
  have hclient : Run.client client w = (.ok (w.clients[client]?.getD default), w) := rfl
  rw [Run.bind_of_ok hclient, Run.bind_apply, Run.outcome_apply]
  unfold chosenProfiles isDomain at h
  rw [h]
  rfl

theorem addAll_of_chosen {profiles : List String} {chosen : List (Option String)} {r : Resource}
    {rs : List Resource} {w₁ : World σ}
    (h : chosenProfiles w client profiles w = (.ok chosen, w₁))
    (he : addEach client options (targets (r :: rs) chosen) w₁ = (.ok (bs, fault), w')) :
    addAll client options profiles (r :: rs) w = (.ok (⟨bs, options.dryRun⟩, fault), w') := by
  unfold addAll
  simp only [List.isEmpty_cons, Bool.false_eq_true, if_false]
  have hclient : Run.client client w = (.ok (w.clients[client]?.getD default), w) := rfl
  rw [Run.bind_of_ok hclient, Run.bind_apply, Run.outcome_apply]
  unfold chosenProfiles isDomain at h
  rw [h]
  dsimp only
  rw [Run.bind_of_ok he]
  rfl

/-- A run for one resource that goes to one target is one batch. -/
theorem addAll_of_one {profiles : List String} {r : Resource} {profile : Option String} {b : Batch}
    {w₁ : World σ} (hchosen : chosenProfiles w client profiles w = (.ok [profile], w₁))
    (h : addOne client options r profile w₁ = (.ok (b, fault), w')) :
    addAll client options profiles [r] w = (.ok (⟨[b], options.dryRun⟩, fault), w') := by
  refine addAll_of_chosen hchosen ?_
  change addEach client options [(r, profile)] w₁ = _
  unfold addEach
  rw [Run.bind_of_ok h]
  cases fault <;> rfl

theorem addAll_single {r : Resource} {b : Batch} (profiles : List String)
    (hd : isDomain w client = false) (h : addOne client options r none w = (.ok (b, fault), w')) :
    addAll client options profiles [r] w = (.ok (⟨[b], options.dryRun⟩, fault), w') := by
  refine addAll_of_one ?_ h
  unfold chosenProfiles
  rw [hd]
  rfl

theorem chosenProfiles_performs (client : Nat) (profiles : List String) (w : World σ) :
    ∃ plan, plan <+: [listingRequest] ∧
      Run.Speaks (chosenProfiles w client profiles) (Performs plan) := by
  unfold chosenProfiles
  split
  · exact ⟨_, List.prefix_refl _, domainProfiles_performs client profiles⟩
  · exact ⟨[], by simp, Run.performs_pure _⟩

theorem eq_of_chosenProfiles {profiles : List String} {chosen : List (Option String)}
    (h : chosenProfiles w client profiles w = (.ok chosen, w')) :
    chosen = if isDomain w client then profiles.map some else [none] := by
  unfold chosenProfiles at h
  split at h
  · next hd =>
    rw [if_pos hd]
    exact eq_of_domainProfiles h
  · next hd =>
    rw [if_neg hd]
    cases h
    rfl

/-- Either the profiles are refused before the first batch, or the batches take their courses. -/
theorem addAll_cases (client : Nat) (options : AddOptions) (profiles : List String)
    (resources : List Resource) (w : World σ) : ∃ bs fault w',
      addAll client options profiles resources w = (.ok (⟨bs, options.dryRun⟩, fault), w') ∧
        ((∃ e, chosenProfiles w client profiles w = (.error e, w') ∧ bs = [] ∧ fault = some e) ∨
          ∃ w₁, (w₁ = w ∨ ∃ chosen, chosenProfiles w client profiles w = (.ok chosen, w₁)) ∧
            Courses client options (enumeration w client profiles resources) w₁ bs fault w') := by
  cases resources with
  | nil => exact ⟨[], none, w, rfl, .inr ⟨w, .inl rfl, .nil w⟩⟩
  | cons r rs =>
    rcases hc : chosenProfiles w client profiles w with ⟨e | chosen, w₁⟩
    · exact ⟨[], some e, w₁, addAll_of_refused hc, .inl ⟨e, rfl, rfl, rfl⟩⟩
    · obtain ⟨bs, fault, w', he, hcourses⟩ :=
        addEach_courses client options (targets (r :: rs) chosen) w₁
      refine ⟨bs, fault, w', addAll_of_chosen hc he, .inr ⟨w₁, .inr ⟨chosen, rfl⟩, ?_⟩⟩
      unfold enumeration
      rwa [← eq_of_chosenProfiles hc]

theorem addAll_recorded (client : Nat) (options : AddOptions) (profiles : List String)
    (resources : List Resource) (w : World σ) : ∃ bs fault w',
      addAll client options profiles resources w = (.ok (⟨bs, options.dryRun⟩, fault), w') ∧
        Recorded client options (enumeration w client profiles resources) w bs fault w' := by
  obtain ⟨bs, fault, w', hrun, hcases⟩ := addAll_cases client options profiles resources w
  refine ⟨bs, fault, w', hrun, ?_⟩
  obtain ⟨plan, hplan, hs⟩ := chosenProfiles_performs client profiles w
  rcases hcases with ⟨e, hc, rfl, rfl⟩ | ⟨w₁, rfl | ⟨chosen, hc⟩, hcourses⟩
  · obtain ⟨listing, hf, hp⟩ := hs.of_eq hc
    exact recorded_nothing listing hf (hp.begun.trans hplan) (orderly_of_error hp e)
  · exact hcourses.recorded [] (.refl _) (by simp) ⟨by simp, by simp⟩
  · obtain ⟨listing, hf, hp⟩ := hs.of_eq hc
    exact hcourses.recorded listing hf (hp.begun.trans hplan) (orderly_of_ok hp none)

theorem addAll_without_profiles {resources : List Resource} (hr : resources ≠ [])
    (hd : isDomain w client = true) :
    addAll client options [] resources w = (.ok (⟨[], options.dryRun⟩, some (.deploy .noProfiles)), w) := by
  obtain ⟨r, rs, rfl⟩ := List.exists_cons_of_ne_nil hr
  refine addAll_of_refused ?_
  unfold chosenProfiles
  rw [if_pos hd]
  rfl

/-- A run that submits always gives a report, also when a fault ended it. The batches are those of
the first resources and profiles, of all when there was no fault; all but the last are settled, and
an error has failed the last or came after it was committed. One call is made after the success of the
other, and the composites among them are those that the batches record. -/
theorem addAll_batches (client : Nat) (base : Option String) (force : Bool) (profiles : List String)
    (resources : List Resource) (w : World σ) :
    let options : AddOptions := ⟨base, force, false⟩
    let all := enumeration w client profiles resources
    ∃ bs fault w', addAll client options profiles resources w = (.ok (⟨bs, false⟩, fault), w') ∧
      (∃ done, done <+: all ∧ List.Forall₂ (IsFor options) done bs ∧ (fault = none → done = all)) ∧
      (∀ b ∈ bs.dropLast, b.error = none ∧ (b.status = .committed ∨ b.status = .skipped)) ∧
      (fault = none → ∀ b ∈ bs, b.error = none ∧ (b.status = .committed ∨ b.status = .skipped)) ∧
      (∀ e b, fault = some (.deploy e) → bs.getLast? = some b →
        b.error = some (errorText e) ∧ (b.status = .failed ∨ b.status = .committed ∧
          ∃ t w₁, (all.zip bs).getLast? = some (t, b) ∧
            Hook.run client t.1.afterAdd w₁ = (.error (.deploy e), w'))) ∧
      (∃ (listing : List ClientCall) (talks : List BatchTalk),
        w.Follows (talkOf (listing ++ talks.flatMap BatchTalk.all)) w' ∧
          listing.map (·.call) <+: [listingRequest] ∧
          Orderly fault (listing ++ talks.flatMap BatchTalk.all) ∧
          List.Forall₂ (fun tb l => Tells options tb.1 tb.2 l) (all.zip bs) talks ∧
          Submits bs fault ((talks.flatMap (·.submitted)).map (·.call))) ∧
      (resources = [] → bs = [] ∧ fault = none ∧ w' = w) ∧
      (resources ≠ [] → isDomain w client = true → profiles = [] →
        bs = [] ∧ fault = some (.deploy .noProfiles) ∧ w' = w) := by
  intro options all
  obtain ⟨bs, fault, w', hrun, h⟩ := addAll_recorded client options profiles resources w
  have unplanned {b : Batch} (hb : Settled options b) :
      b.error = none ∧ (b.status = .committed ∨ b.status = .skipped) :=
    ⟨hb.1, hb.2.imp_right fun hs => hs.resolve_right fun hp => Bool.noConfusion hp.2⟩
  refine ⟨bs, fault, w', hrun, h.enumerated, fun b hb => unplanned (h.settled b hb),
    fun hf b hb => unplanned (h.returned hf b hb), h.raised, h.talk, ?_, ?_⟩
  · rintro rfl
    have hnothing : addAll client options profiles [] w = (.ok (⟨[], false⟩, none), w) := rfl
    rw [hnothing] at hrun
    cases hrun
    exact ⟨rfl, rfl, rfl⟩
  · rintro hr hd rfl
    rw [addAll_without_profiles hr hd] at hrun
    cases hrun
    exact ⟨rfl, rfl, rfl⟩

end Resource

end ServerDeploy
