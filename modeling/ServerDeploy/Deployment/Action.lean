import ServerDeploy.Json.Basic

/-! What happened to the steps of a submitted deployment. -/

namespace ServerDeploy

inductive ActionOutcome where
  | executed
  | failed
  | notExecuted
  | rolledBack
  | requiresRestart
  deriving DecidableEq, Repr, Inhabited

namespace ActionOutcome

def name : ActionOutcome → String
  | .executed => "executed"
  | .failed => "failed"
  | .notExecuted => "not_executed"
  | .rolledBack => "rolled_back"
  | .requiresRestart => "configuration_modified_requires_restart"

def isFailure : ActionOutcome → Bool
  | .failed | .notExecuted | .rolledBack => true
  | .executed | .requiresRestart => false

def failureSentence : ActionOutcome → String
  | .failed => "Deployment failed."
  | .notExecuted => "Deployment not executed."
  | .rolledBack => "Deployment failed and was rolled back."
  | .executed | .requiresRestart => ""

/-- Failures in the order in which they are looked for as the cause of all others. -/
def rank : ActionOutcome → Nat
  | .failed => 0
  | .notExecuted => 1
  | .rolledBack => 2
  | .executed | .requiresRestart => 3

end ActionOutcome

/-- The outcome of one step: its operation, the deployment it was about, and the failure description
the server gave, null if it gave none. -/
structure ActionResult where
  operation : Json
  deployment : Json
  outcome : ActionOutcome
  failure : Json
  deriving Repr, Inhabited

end ServerDeploy
