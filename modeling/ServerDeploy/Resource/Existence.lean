import ServerDeploy.Session.Client

/-! Whether a resource exists: its parent is read, and the resource is looked for among the children
of its type. -/

namespace ServerDeploy

structure Existence where
  found : Bool
  /-- The number of children of the type that was looked for. -/
  childCount : Nat
  deriving DecidableEq, Repr, Inhabited

namespace Existence

def entryNames : List Json → List String
  | [] => []
  | .obj members :: rest => members.map (·.1) ++ entryNames rest
  | v :: rest => v.text :: entryNames rest

/-- The names of children, however the server reports them. -/
def childNames : Json → Except Fault (List String)
  | .obj members => .ok (members.map (·.1))
  | .arr entries => .ok (entryNames entries)
  | .str s => .ok (s.toList.map String.singleton)
  | _ => .error .shape

def ofResult (childType childName : String) (result : Json) : Except Fault Existence :=
  let children := (result.member? childType).getD .null
  if !children.isSomething then .ok ⟨false, 0⟩
  else (childNames children).map fun names => ⟨names.contains childName, names.length⟩

variable {σ : Type} [Endpoint σ]

/-- Looks for a resource by reading its parent, without its descendants. -/
def check (client : Nat) (address : Address) : Run σ Existence := do
  match address.child?, address.parent? with
  | some (childType, childName), some parent => do
    let r ← Client.execute client (.obj (Operation.readResource parent false))
    if !r.isSuccessful then Run.fail r.toError
    Run.ofExcept (ofResult childType childName r.result)
  | _, _ => Run.fail .emptyAddress

end Existence

end ServerDeploy
