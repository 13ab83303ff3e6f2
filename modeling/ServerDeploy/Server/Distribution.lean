import ServerDeploy.Artifact.Repository

/-! Server distributions: where the home of a server comes from, and the unpacking of its archive. No
entry of an archive may lead out of the directory it is unpacked into. -/

namespace ServerDeploy

namespace Archive

def claimedPlace (target : Place) (name : String) : Place :=
  Path.place ⟨"/", target⟩ (.ofText name)

def escaping? (target : Place) (entries : List (String × String)) : Option String :=
  (entries.map (·.1)).find? fun name => !target.isPrefixOf (claimedPlace target name)

def entryParts (name : String) : List String :=
  (splitText '/' name).filter fun part => !(part.isEmpty || part == "." || part == "..")

def isFolderName (name : String) : Bool := name.toList.getLast? == some '/'

/-- Unpacks one entry. A directory that is there already is kept. -/
def unpackEntry (target : Place) (files : Files) (entry : String × String) :
    Except FileFault Files := do
  let place := target ++ entryParts entry.1
  let files ← match files.entry? place.dropLast with
    | some _ => .ok files
    | none => files.makeDirectories [] place.dropLast
  if isFolderName entry.1 then
    match files.entry? place.dropLast, files.entry? place with
    | _, some .directory => .ok files
    | _, some (.file _) => .error .exists
    | some (.file _), none => .error .notDirectory
    | _, none => .ok (files.set place .directory)
  else files.write [] place (.text entry.2)

variable {σ : Type}

/-- Unpacks entries in order, up to the first that cannot be. -/
def unpackEntries (target : Place) : List (String × String) → Run σ Unit
  | [] => pure ()
  | entry :: rest => do
    Run.changeFiles fun w => unpackEntry target w.files entry
    unpackEntries target rest

/-- Unpacks an archive into a directory. Nothing is written if some entry leads out of it. -/
def extract (archive target : Path) : Run σ Unit := do
  let place := Path.place (← get).directory target
  match ← Run.readContent archive with
  | .text _ => throw .brokenArchive
  | .archive entries =>
    match escaping? place entries with
    | some name =>
      throw (.configuration (.escapingEntry name (Path.text ⟨"/", place⟩)))
    | none => unpackEntries place entries

end Archive

structure Distribution where
  buildDirectory : Path
  home : Option String
  version : Option String
  artifact : String
  url : Option String
  deriving Repr, Inhabited

namespace Distribution

def defaultArtifact : String := "org.jboss.as:jboss-as-dist"

def defaultVersion : String := "7.1.1.Final"

/-- The folder of a build directory into which a distribution is unpacked. -/
def runFolder : String := "jboss-as-run"

def given (s : Option String) : Option String := s.filter fun s => !s.isEmpty

variable {σ : Type}

/-- Downloads a server runtime once, unless it is there already. -/
def downloadOnce (url : String) (target : Path) : Run σ Path := do
  if ← Run.pathExists target then pure target
  else do
    Run.makeDirectories target.parent
    let f ← Run.fetch url
    if 400 ≤ f.status then Run.fail (.artifact (.runtimeRefused url f.status))
    Run.saveFetched f target
    pure target

def download (url : String) (target : Path) : Run σ Path :=
  Run.withRetry .download (downloadOnce url target)

def singleDirectory (target : Path) : Run σ Path := do
  match ← Run.findEntry target with
  | .error e => throw (.system (.file e))
  | .ok (_, .file _) => throw (.system (.file .notDirectory))
  | .ok (place, .directory) => do
    let files := (← get).files
    match (files.children place).filter fun name => files.isDirectory (place ++ [name]) with
    | [name] => Run.absolute (target.child name)
    | _ => throw (.configuration (.unclearServerHome target.text))

/-- The archive of a distribution, and its version if that is known: by coordinates when there is a
version, else from a download address. -/
def archive (d : Distribution) (r : Repositories) : Run σ (Path × Option String) := do
  let parts := splitText ':' d.artifact
  if parts.length != 2 && parts.length != 3 then
    throw (.configuration (.invalidDistribution d.artifact))
  match given (given d.version <|> parts[2]?), given d.url with
  | some version, _ => do
    let p ← r.resolve ⟨parts[0]?, parts[1]?, some version, "zip", none⟩
    pure (p, some version)
  | none, some url => do
    let p ← download url (d.buildDirectory.child (Path.ofText (Url.filePath url)).name)
    pure (p, none)
  | none, none => throw (.configuration .noDistributionSource)

/-- The home of the server: a given one as it is, else the directory for the version in the unpacked
archive of a distribution. -/
def resolve (d : Distribution) (r : Repositories) : Run σ Path := do
  match given d.home with
  | some home => pure (.ofText home)
  | none => do
    let (archive, version) ← d.archive r
    let target := d.buildDirectory.child runFolder
    if ← Run.pathExists target then Run.removeTree target
    Archive.extract archive target
    match version with
    | some version => do
      let target ← Run.absolute target
      pure (target.child ("jboss-as-" ++ version))
    | none => singleDirectory target

end Distribution

end ServerDeploy
