import ServerDeploy.Deployment.Action
import ServerDeploy.Model.Operation
import ServerDeploy.Model.Outcome

/-! What a response to a composite says about each of its steps. -/

namespace ServerDeploy

namespace ActionResult

/-- A member of a value that must be an object; null if it is missing. -/
def memberOf (name : String) (v : Json) : Except Fault Json :=
  match v with
  | .obj members => .ok ((Members.get? name members).getD .null)
  | _ => .error .shape

/-- The states of a server that has yet to take up a change. -/
def isRestartState (v : Json) : Bool :=
  v.isText "reload-required" || v.isText "restart-required"

def headersRequireRestart (headers : Json) : Except Fault Bool :=
  if !headers.isSomething then .ok false
  else do
    let reload ← memberOf "operation-requires-reload" headers
    let restart ← memberOf "operation-requires-restart" headers
    let state ← memberOf "process-state" headers
    pure (reload.isSomething || restart.isSomething || isRestartState state)

def containsText (part : List Char) : List Char → Bool
  | [] => part.isEmpty
  | c :: rest => part.isPrefixOf (c :: rest) || containsText part rest

def segmentDeployment? (segment : Json) : Except Fault (Option Json) :=
  match segment with
  | .obj members => .ok (Members.get? Operation.deploymentKey members)
  | .str s =>
    if containsText Operation.deploymentKey.toList s.toList then .error .shape else .ok none
  | .arr items =>
    if items.any (Json.isText Operation.deploymentKey) then .error .shape else .ok none
  | _ => .error .shape

/-- The deployment that the segments name first; the empty text if none does. -/
def segmentsDeployment : List Json → Except Fault Json
  | [] => .ok (.str "")
  | segment :: rest => do
    match ← segmentDeployment? segment with
    | some name => pure name
    | none => segmentsDeployment rest

def addressDeployment (address : Json) : Except Fault Json :=
  match address with
  | .arr segments => segmentsDeployment segments
  | .obj members => segmentsDeployment (members.map fun (k, _) => .str k)
  | .str _ => .ok (.str "")
  | _ => .error .shape

/-- The deployment a step is about: its name parameter, else what its address names. -/
def stepDeployment (step : Members) : Except Fault Json :=
  let name := (step.get? "name").getD .null
  if name.isSomething then .ok name
  else addressDeployment ((step.get? Operation.addressKey).getD (.arr []))

def stepResults (r : Outcome) : Members :=
  match r.result with
  | .obj members => members
  | _ => []

/-- Whether the server undid what it had done. -/
def isRolledBack (r : Outcome) : Bool := ((r.get? "rolled-back").getD .null).isSomething

def headersKey : String := "response-headers"

def reportedFate (r : Outcome) (entry : Json) : Except Fault (ActionOutcome × Json) := do
  let outcome ← memberOf Outcome.outcomeKey entry
  if outcome.isText "failed" then
    let failure ← memberOf Outcome.failureKey entry
    pure (.failed, failure)
  else if outcome.isText "cancelled" then pure (.notExecuted, .null)
  else if !r.isSuccessful && isRolledBack r then pure (.rolledBack, r.failure)
  else
    let headers ← memberOf headersKey entry
    let ownRestart ← headersRequireRestart headers
    let restart ←
      if ownRestart then .ok true
      else headersRequireRestart ((r.get? headersKey).getD .null)
    pure (if restart then .requiresRestart else .executed, .null)

/-- The fate of a step: its outcome, with the failure description that explains it. -/
def fate (r : Outcome) (entry : Json) : Except Fault (ActionOutcome × Json) :=
  match entry with
  | .null => .ok (.notExecuted, if r.isSuccessful then .null else r.failure)
  | entry => reportedFate r entry

/-- The key under which a response reports on a step; steps are counted from one. -/
def stepKey (number : Nat) : String := "step-" ++ toString number

def ofStep (r : Outcome) (number : Nat) (step : Json) : Except Fault ActionResult :=
  match step with
  | .obj members => do
    let deployment ← stepDeployment members
    let (outcome, failure) ← fate r (((stepResults r).get? (stepKey number)).getD .null)
    pure ⟨(Members.get? Operation.nameKey members).getD .null, deployment, outcome, failure⟩
  | _ => .error .shape

def ofSteps (r : Outcome) (number : Nat) : List Json → Except Fault (List ActionResult)
  | [] => .ok []
  | step :: rest => do
    let action ← ofStep r number step
    let actions ← ofSteps r (number + 1) rest
    pure (action :: actions)

/-- A failure that no step accounts for is laid to the first one. -/
def settle (r : Outcome) (actions : List ActionResult) : List ActionResult :=
  if r.isSuccessful || actions.any (·.outcome.isFailure) then actions
  else match actions with
    | [] => []
    | a :: rest => { a with outcome := .failed, failure := r.failure } :: rest

def ofResponse (steps : List Json) (r : Outcome) : Except Fault (List ActionResult) :=
  (ofSteps r 1 steps).map (settle r)

/-- The failure that is the cause of the others: a failed step before one that was not executed, that
before one rolled back, and of several the first. -/
def rootFailure? : List ActionResult → Option ActionResult
  | [] => none
  | a :: rest =>
    match rootFailure? rest with
    | none => if a.outcome.isFailure then some a else none
    | some b =>
      if a.outcome.isFailure && a.outcome.rank ≤ b.outcome.rank then some a else some b

def toError (a : ActionResult) : DeployError :=
  let reason := match a.failure with
    | .null => ""
    | description => " " ++ description.text
  .deploymentFailed (a.outcome.failureSentence ++ reason) a

end ActionResult

end ServerDeploy
