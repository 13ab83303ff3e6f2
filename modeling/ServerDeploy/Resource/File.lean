import ServerDeploy.Resource.Descriptor
import ServerDeploy.World.FileAccess
import ServerDeploy.Yaml.Value

/-! Resource files: YAML documents that hold resource descriptors. -/

namespace ServerDeploy

namespace Resource

variable {σ : Type}

/-- The file that is read when none is named. -/
def defaultFile : Path := .ofText "resources.yaml"

/-- The resources of a YAML text; a document that counts as nothing holds none. -/
def parseText (path : Path) (s : String) : Except Fault (List Resource) :=
  match Yaml.parse s with
  | .error .malformed => .error (.configuration (.invalidYaml path.text))
  | .error (.fault f) => .error f
  | .ok d => parse (if d.isSomething then d else .map [])

def load (path : Path) : Run σ (List Resource) := do
  if !(← Run.pathExists path) then throw (.configuration (.resourceFileMissing path.text))
  let s ← Run.readText path
  Run.ofExcept (parseText path s)

end Resource

end ServerDeploy
