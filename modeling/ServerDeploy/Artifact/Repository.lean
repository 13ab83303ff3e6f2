import ServerDeploy.Artifact.Coordinates
import ServerDeploy.World.Retry
import ServerDeploy.World.Web

/-! Repositories of artifacts: a local one, and remote ones from which what is missing is
downloaded. -/

namespace ServerDeploy

/-- A local repository and the remote ones behind it. -/
structure Repositories where
  localPath : Path
  remotes : List String
  deriving Repr, Inhabited

namespace Repositories

def defaultRemotes : List String := ["https://repo.maven.apache.org/maven2"]

def defaultLocal (home : Path) : Path := (home.child ".m2").child "repository"

/-- An address without slashes at its end. -/
def trimmed (url : String) : String :=
  String.ofList (url.toList.reverse.dropWhile (· == '/')).reverse

/-- Repositories as chosen; the local one is under the home directory unless another is named. -/
def choose (home : Path) (localPath : Option Path) (remotes : List String) : Repositories :=
  ⟨localPath.getD (defaultLocal home), remotes.map trimmed⟩

variable {σ : Type}

/-- Downloads an artifact once. Tells whether the repository has it. -/
def downloadOnce (url : String) (target : Path) : Run σ Bool := do
  let f ← Run.fetch url
  if f.status == 404 then pure false
  else if 400 ≤ f.status then Run.fail (.artifact (.refused url f.status))
  else do
    Run.makeDirectories target.parent
    Run.saveFetched f target
    pure true

/-- Downloads an artifact from the first of some repositories that has it. -/
def downloadFirst (place : String) (target : Path) : List String → Run σ Bool
  | [] => pure false
  | remote :: rest => do
    if ← Run.withRetry .download (downloadOnce (remote ++ "/" ++ place) target) then pure true
    else downloadFirst place target rest

/-- The file of an artifact, downloaded if it is not in the local repository. -/
def resolve (r : Repositories) (c : Coordinates) : Run σ Path := do
  match c.missing?, c.repositoryPath? with
  | some problem, _ => Run.fail (.artifact problem)
  | none, none => throw .shape
  | none, some place => do
    let target := r.localPath.child place
    if ← Run.pathExists target then pure target
    else if r.remotes.isEmpty then Run.fail (.artifact (.unresolved c.text))
    else if ← downloadFirst place target r.remotes then pure target
    else Run.fail (.artifact (.unresolvedFrom c.text r.remotes))

/-- A file that was named directly; it must be there. -/
def resolveFile (file : String) : Run σ Path := do
  let p := Path.ofText file
  if ← Run.pathExists p then pure p else Run.fail (.artifact (.fileMissing p.name))

/-- The file of a deployment: one that was named directly, else that of an artifact. -/
def resolveArtifact (r : Repositories) (c : Option Coordinates) (file : Option String) :
    Run σ Path :=
  match file.filter fun s => !s.isEmpty with
  | some file => resolveFile file
  | none => r.resolve (c.getD .unknown)

end Repositories

end ServerDeploy
