import ServerDeploy.Fault

/-! Reading what the server answered to an operation: an object with an outcome, a result, and a
failure description where it failed. -/

namespace ServerDeploy

abbrev Outcome := Members

namespace Outcome

def outcomeKey : String := "outcome"

def failureKey : String := "failure-description"

def isSuccessful (r : Outcome) : Bool :=
  (r.get? outcomeKey).any (Json.isText "success")

def result (r : Outcome) : Json := (r.get? "result").getD .null

def failure (r : Outcome) : Json := (r.get? failureKey).getD .null

/-- Describes a failed outcome; nothing is said about a successful one. -/
def failureText (r : Outcome) : String :=
  if r.isSuccessful then ""
  else match r.failure with
    | .null =>
      "An unexpected response was found executing the operation. Result: " ++ Json.display (.obj r)
    | description =>
      let name := (r.get? "operation").getD .null
      if name.isSomething then
        "Operation '" ++ name.text ++ "' at address '" ++ ((r.get? "address").getD .null).text ++
          "' failed: " ++ description.text
      else "Operation failed: " ++ description.text

def toError (r : Outcome) : DeployError := .operationFailed r.failureText r.failure

def require (r : Outcome) : Except Fault Outcome :=
  if r.isSuccessful then .ok r else .error (.deploy r.toError)

/-- The result as text: nothing is empty, truth values are in lower case. -/
def resultText (r : Outcome) : String :=
  match r.result with
  | .null => ""
  | .bool b => if b then "true" else "false"
  | v => v.text

end Outcome

end ServerDeploy
