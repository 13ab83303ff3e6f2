import ServerDeploy.Model.Operation

/-! Composite operations: steps that the server runs in order and as a whole. -/

namespace ServerDeploy

structure Composite where
  rollbackOnFailure : Bool
  steps : List Json
  deriving Inhabited, Repr

namespace Composite

/-- A composite without steps that is rolled back as a whole when a step fails. -/
def empty : Composite := ⟨true, []⟩

/-- A step must be an object with an operation name. -/
def addStep (c : Composite) (op : Json) : Except Fault Composite :=
  match op with
  | .obj members =>
    match Members.get? Operation.nameKey members with
    | some name =>
      if name.isSomething then .ok { c with steps := c.steps ++ [op] }
      else .error (.value ("Invalid operation: " ++ op.display))
    | none => .error (.value ("Invalid operation: " ++ op.display))
  | _ => .error .shape

def addSteps (c : Composite) : List Json → Except Fault Composite
  | [] => .ok c
  | op :: rest =>
    match addStep c op with
    | .error e => .error e
    | .ok c => addSteps c rest

def build (c : Composite) : Operation :=
  Members.setAll (Operation.make "composite" .empty [])
    [("rollback-on-runtime-failure", .bool c.rollbackOnFailure), ("steps", .arr c.steps)]

end Composite

end ServerDeploy
