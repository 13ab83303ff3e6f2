import ServerDeploy.Fault
import ServerDeploy.Text.Split

/-! Coordinates of artifacts: group, artifact, version, packaging and classifier, and the place of an
artifact in a repository. -/

namespace ServerDeploy

/-- The coordinates of an artifact. Parts that are missing show as `None`. -/
structure Coordinates where
  group : Option String
  artifact : Option String
  version : Option String
  packaging : String
  classifier : Option String
  deriving DecidableEq, Repr, Inhabited

namespace Coordinates

def defaultPackaging : String := "jar"

def unknown : Coordinates := ⟨none, none, none, defaultPackaging, none⟩

/-- Reads `group:artifact:version[:packaging[:classifier]]`, of which no part may be empty. -/
def parse (s : String) : Except ArtifactProblem Coordinates :=
  let parts := splitText ':' s
  if parts.any String.isEmpty then .error (.invalidCoordinates s)
  else match parts with
    | [group, artifact, version] =>
      .ok ⟨some group, some artifact, some version, defaultPackaging, none⟩
    | [group, artifact, version, packaging] =>
      .ok ⟨some group, some artifact, some version, packaging, none⟩
    | [group, artifact, version, packaging, classifier] =>
      .ok ⟨some group, some artifact, some version, packaging, some classifier⟩
    | _ => .error (.invalidCoordinates s)

def isGiven (part : Option String) : Bool := part.any fun s => !s.isEmpty

def missing? (c : Coordinates) : Option ArtifactProblem :=
  if !isGiven c.artifact then some .noArtifactId
  else if !isGiven c.group then some .noGroupId
  else if !isGiven c.version then some .noVersion
  else none

def shown (part : Option String) : String := part.getD "None"

def classifierText (mark : String) (c : Coordinates) : String :=
  match c.classifier with
  | some s => if s.isEmpty then "" else mark ++ s
  | none => ""

def text (c : Coordinates) : String :=
  shown c.group ++ ":" ++ shown c.artifact ++ ":" ++ shown c.version ++ ":" ++ c.packaging ++
    c.classifierText ":"

def fileName (c : Coordinates) : String :=
  shown c.artifact ++ "-" ++ shown c.version ++ c.classifierText "-" ++ "." ++ c.packaging

/-- The place of the artifact in a repository, with a folder for every part of the group. Without a
group there is none. -/
def repositoryPath? (c : Coordinates) : Option String :=
  c.group.map fun group =>
    String.ofList (group.toList.map fun d => if d == '.' then '/' else d) ++ "/" ++
      shown c.artifact ++ "/" ++ shown c.version ++ "/" ++ c.fileName

end Coordinates

end ServerDeploy
