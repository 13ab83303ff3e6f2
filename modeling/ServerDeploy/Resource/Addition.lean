import ServerDeploy.Resource.Composition
import ServerDeploy.Resource.Hooks

/-! Adding resources to a server. Each resource is one batch, in a domain one for each profile. The
first failure ends the run; batches committed before it stay committed. -/

namespace ServerDeploy

inductive BatchStatus where
  | pending
  | committed
  | skipped
  | failed
  | planned
  deriving DecidableEq, Repr, Inhabited

def BatchStatus.name : BatchStatus → String
  | .pending => "pending"
  | .committed => "committed"
  | .skipped => "skipped"
  | .failed => "failed"
  | .planned => "planned"

structure Batch where
  address : String
  profile : Option String
  status : BatchStatus
  steps : List Json
  error : Option String
  deriving Repr, Inhabited

/-- The batches of a run in the order in which they were started. -/
structure Report where
  batches : List Batch
  dryRun : Bool
  deriving Repr, Inhabited

namespace Report

def withStatus (r : Report) (s : BatchStatus) : List Batch :=
  r.batches.filter fun b => b.status == s

def committed (r : Report) : List Batch := r.withStatus .committed

def skipped (r : Report) : List Batch := r.withStatus .skipped

def failed (r : Report) : List Batch := r.withStatus .failed

def success (r : Report) : Bool := r.failed.isEmpty

end Report

namespace Resource

structure AddOptions where
  base : Option String
  force : Bool
  dryRun : Bool
  deriving Repr, Inhabited

/-- The text of an error in a report: the server's description if it says something. -/
def errorText (e : DeployError) : String :=
  let description := e.description
  if description.isSomething then description.text else e.message

/-- A batch that a fault ended. Only errors meant for the operator are recorded in it. -/
def endBatch (b : Batch) : Fault → Batch
  | .deploy e =>
    { b with
      error := some (errorText e)
      status := if b.status = .committed then .committed else .failed }
  | _ => b

variable {σ : Type} [Endpoint σ]

/-- Runs a part of a batch: what it does goes on with the batch, and a fault ends it. -/
def during {α : Type} (b : Batch) (body : Run σ α) (next : α → Run σ (Batch × Option Fault)) :
    Run σ (Batch × Option Fault) := do
  match ← Run.outcome body with
  | .ok v => next v
  | .error fault => pure (endBatch b fault, some fault)

def submit (client : Nat) (r : Resource) (c : Composite) (b : Batch) : Run σ (Batch × Option Fault) :=
  let send : Run σ Unit := do
    let _ ← Hook.run client r.beforeAdd
    let _ ← Client.executeRequired client (.obj c.build)
  during b send fun _ =>
    let b := { b with status := .committed }
    during b (Hook.run client r.afterAdd) fun _ => pure (b, none)

/-- Adds one resource in one profile. Gives the batch, and the fault that ended it if one did. -/
def addOne (client : Nat) (options : AddOptions) (r : Resource) (profile : Option String) :
    Run σ (Batch × Option Fault) :=
  let label := ((addressOrNone r.address) <|> (addressOrNone options.base)).getD ""
  let b : Batch := ⟨label, profile, .pending, [], none⟩
  during b (compose client r options.base profile options.force) fun composed =>
    let b := { b with address := composed.address.text }
    match composed.composite with
    | none => pure ({ b with status := .skipped }, none)
    | some c =>
      let b := { b with steps := c.steps }
      if options.dryRun then pure ({ b with status := .planned }, none)
      else submit client r c b

/-- Adds resources to their targets in order, up to the first fault. -/
def addEach (client : Nat) (options : AddOptions) :
    List (Resource × Option String) → Run σ (List Batch × Option Fault)
  | [] => pure ([], none)
  | (r, profile) :: rest => do
    match ← addOne client options r profile with
    | (b, some fault) => pure ([b], some fault)
    | (b, none) => do
      let (bs, fault) ← addEach client options rest
      pure (b :: bs, fault)

/-- The batches of a run: every resource with every profile, or with none on a standalone server. -/
def targets (resources : List Resource) (profiles : List (Option String)) :
    List (Resource × Option String) :=
  resources.flatMap fun r => profiles.map fun p => (r, p)

/-- Texts without repetitions, sorted. -/
def sortedNames (names : List String) : List String :=
  (names.eraseDups).mergeSort fun a b => !decide (b < a)

def allTexts : List Json → Option (List String)
  | [] => some []
  | .str s :: rest => (allTexts rest).map (s :: ·)
  | _ :: _ => none

/-- The profiles to add to, all of which the domain must know. -/
def knownProfiles (profiles : List String) (known : List Json) :
    Except Fault (List (Option String)) :=
  let isCollection (v : Json) : Bool := match v with
    | .arr _ | .obj _ => true
    | _ => false
  if known.any isCollection then .error .shape
  else
    let unknown := profiles.filter fun p => !known.any (Json.isText p)
    if unknown.isEmpty then .ok (profiles.map some)
    else match allTexts known with
      | none => .error .shape
      | some names => .error (.configuration (.unknownProfiles unknown (sortedNames names)))

def domainProfiles (client : Nat) (profiles : List String) : Run σ (List (Option String)) := do
  if profiles.isEmpty then Run.fail .noProfiles
  let known ← Client.profileNames client
  Run.ofExcept (knownProfiles profiles known)

/-- Adds resources. Gives the report of the run and the fault that ended it, if one did. -/
def addAll (client : Nat) (options : AddOptions) (profiles : List String)
    (resources : List Resource) : Run σ (Report × Option Fault) := do
  if resources.isEmpty then pure (⟨[], options.dryRun⟩, none)
  else do
    let c ← Run.client client
    let chosen ← Run.outcome (if c.isDomain then domainProfiles client profiles else pure [none])
    match chosen with
    | .error fault => pure (⟨[], options.dryRun⟩, some fault)
    | .ok profiles => do
      let (batches, fault) ← addEach client options (targets resources profiles)
      pure (⟨batches, options.dryRun⟩, fault)

end Resource

end ServerDeploy
