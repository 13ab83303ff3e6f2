import ServerDeploy.Document.Basic
import ServerDeploy.World.Files

/-! The management endpoint as a machine that answers requests. A script of replies is one such
machine, a modelled server another; all code that talks to the endpoint works with any of them. -/

namespace ServerDeploy

inductive Body where
  | json (v : Json)
  | text (s : String)
  deriving Repr, Inhabited

/-- What comes back for one request. A challenge is a refusal that asks for digest credentials. -/
inductive Reply where
  | answer (status : Nat) (body : Body)
  | lost (reason : String)
  | interrupted
  | challenge
  deriving Repr, Inhabited

inductive Call where
  | operation (op : Json)
  | upload (name : String) (content : Content)
  deriving Repr, Inhabited

/-- A request as the endpoint sees it, with the user whose credentials it carries, if any. -/
structure Request where
  url : String
  call : Call
  user : Option Document
  deriving Repr, Inhabited

class Endpoint (σ : Type) where
  answer : σ → Request → Reply × σ

/-- A script: replies in order, and refusals when they are used up. -/
abbrev Script := List Reply

namespace Script

/-- The answer after the last reply of a script. -/
def exhausted : Reply :=
  .answer 500 (.json (.obj [("outcome", .str "failed"),
    ("failure-description", .str "no more responses")]))

instance : Endpoint Script where
  answer script _ :=
    match script with
    | [] => (exhausted, [])
    | reply :: rest => (reply, rest)

end Script

end ServerDeploy
