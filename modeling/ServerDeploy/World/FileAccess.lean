import ServerDeploy.World.State

/-! Access to the files of the world by path. -/

namespace ServerDeploy

namespace Run

variable {σ : Type}

def startOf (w : World σ) (p : Path) : Place := if p.isAbsolute then [] else w.directory.parts

def findEntry (p : Path) : Run σ (Except FileFault (Place × Entry)) := do
  let w ← get
  pure (w.files.find (startOf w p) p.parts)

def pathExists (p : Path) : Run σ Bool := do
  match ← findEntry p with
  | .ok _ => pure true
  | .error _ => pure false

def isDirectory (p : Path) : Run σ Bool := do
  match ← findEntry p with
  | .ok (_, .directory) => pure true
  | _ => pure false

def readContent (p : Path) : Run σ Content := do
  match ← findEntry p with
  | .ok (_, .file content) => pure content
  | .ok (_, .directory) => throw (.system (.file .isDirectory))
  | .error e => throw (.system (.file e))

def readText (p : Path) : Run σ String := do
  match ← readContent p with
  | .text s => pure s
  | .archive _ => throw (.value "not a text file")

def changeFiles (f : World σ → Except FileFault Files) : Run σ Unit := do
  let w ← get
  match f w with
  | .ok files => set { w with files := files }
  | .error e => throw (.system (.file e))

def makeDirectories (p : Path) : Run σ Unit :=
  changeFiles fun w => w.files.makeDirectories (startOf w p) p.parts

def writeContent (p : Path) (content : Content) : Run σ Unit :=
  changeFiles fun w => w.files.write (startOf w p) p.parts content

def removeFile (p : Path) : Run σ Unit := do
  match ← findEntry p with
  | .ok (place, .file _) => modify fun w => { w with files := w.files.erase place }
  | .ok (_, .directory) => throw (.system (.file .isDirectory))
  | .error .notFound => pure ()
  | .error e => throw (.system (.file e))

def removeTree (p : Path) : Run σ Unit := do
  match ← findEntry p with
  | .ok (place, .directory) => modify fun w => { w with files := w.files.eraseTree place }
  | .ok (_, .file _) => throw (.system (.file .notDirectory))
  | .error e => throw (.system (.file e))

/-- Moves a file to another name in its directory, over a file that is there. Two points are no name
that a file can get. -/
def renameFile (p : Path) (name : String) : Run σ Unit := do
  if name == ".." then throw (.system .other)
  let content ← readContent p
  writeContent (p.withName name) content
  removeFile p

def absolute (p : Path) : Run σ Path := do
  let w ← get
  pure (w.directory.join p)

end Run

end ServerDeploy
