import ServerDeploy.Pattern.Reader
import ServerDeploy.Session.Client

/-! The deployments of a server, and the one that a name or a pattern stands for. -/

namespace ServerDeploy

namespace Deployments

/-- A deployment is looked for by a pattern of its whole name, or by the name. -/
inductive Criterion where
  | matching (p : Pattern)
  | named (name : String)
  deriving Repr

def Criterion.holds (c : Criterion) (name : String) : Bool :=
  match c with
  | .matching p => p.fits name
  | .named wanted => name == wanted

/-- The criterion of a search. A pattern wins over a name, and there must be one of them. -/
def criterion (name pattern : Option String) : Except Fault Criterion :=
  match pattern, name with
  | some pattern, _ =>
    match Pattern.parse pattern with
    | .ok p => .ok (.matching p)
    | .error reason => .error (.configuration (.invalidPattern pattern reason))
  | none, some name => .ok (.named name)
  | none, none => .error (.deploy .ambiguousCriteria)

variable {σ : Type} [Endpoint σ]

/-- The names of all deployments, in the order in which the server reports them. -/
def names (client : Nat) : Run σ (List String) := do
  let r ← Client.executeRequired client (.obj Operation.listDeployments)
  let found ← Run.ofExcept (Client.namesOf r.result)
  pure (found.map Json.text)

/-- The first deployment that meets the criterion of a search. -/
def find (client : Nat) (name pattern : Option String) : Run σ (Option String) := do
  let c ← Run.ofExcept (criterion name pattern)
  let found ← names client
  pure (found.find? c.holds)

end Deployments

end ServerDeploy
