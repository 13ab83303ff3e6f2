import ServerDeploy.World.Path

/-! A tree of files and directories. Places are lists of names from the root; the directories above
an entry are part of the tree. -/

namespace ServerDeploy

/-- What a file holds: text, or an archive given by its entries in order. -/
inductive Content where
  | text (s : String)
  | archive (entries : List (String × String))
  deriving DecidableEq, Repr, Inhabited

abbrev Place := List String

inductive Entry where
  | directory
  | file (content : Content)
  deriving DecidableEq, Repr, Inhabited

/-- Kinds of refusals of the file system. -/
inductive FileFault where
  | notFound
  | exists
  | isDirectory
  | notDirectory
  | notEmpty
  deriving DecidableEq, Repr

/-- The entries of a tree. The root is always a directory. -/
structure Files where
  entries : List (Place × Entry)
  deriving Repr, Inhabited

namespace Files

def lookup (place : Place) : List (Place × Entry) → Option Entry
  | [] => none
  | (p, e) :: rest => if p = place then some e else lookup place rest

def entry? (files : Files) (place : Place) : Option Entry :=
  if place.isEmpty then some .directory else lookup place files.entries

def isDirectory (files : Files) (place : Place) : Bool :=
  files.entry? place == some .directory

def put (place : Place) (entry : Entry) : List (Place × Entry) → List (Place × Entry)
  | [] => [(place, entry)]
  | (p, e) :: rest => if p = place then (p, entry) :: rest else (p, e) :: put place entry rest

def set (files : Files) (place : Place) (entry : Entry) : Files :=
  ⟨put place entry files.entries⟩

/-- The tree without the entry at a place. -/
def erase (files : Files) (place : Place) : Files :=
  ⟨files.entries.filter fun (p, _) => p != place⟩

def eraseTree (files : Files) (place : Place) : Files :=
  ⟨files.entries.filter fun (p, _) => !place.isPrefixOf p⟩

/-- The names directly under a directory, in the order in which they were made. -/
def children (files : Files) (place : Place) : List String :=
  files.entries.filterMap fun (p, _) =>
    match p.getLast? with
    | some name => if p.dropLast == place then some name else none
    | none => none

/-- Where a walk along the parts of a path ends. Every part but the last must be a directory, and
two points lead to the directory above. -/
def walk (files : Files) : Place → List String → Except FileFault Place
  | here, [] => .ok here
  | here, part :: rest =>
    match files.entry? here with
    | none => .error .notFound
    | some (.file _) => .error .notDirectory
    | some .directory => walk files (if part == ".." then here.dropLast else here ++ [part]) rest

def find (files : Files) (start : Place) (parts : List String) : Except FileFault (Place × Entry) :=
  match walk files start parts with
  | .error e => .error e
  | .ok place =>
    match files.entry? place with
    | some e => .ok (place, e)
    | none => .error .notFound

def makeDirectories (files : Files) : Place → List String → Except FileFault Files
  | _, [] => .ok files
  | here, part :: rest =>
    let next := if part == ".." then here.dropLast else here ++ [part]
    match files.entry? next with
    | some .directory => makeDirectories files next rest
    | some (.file _) => .error (if rest.isEmpty then .exists else .notDirectory)
    | none => makeDirectories (files.set next .directory) next rest

def write (files : Files) (start : Place) (parts : List String) (content : Content) :
    Except FileFault Files :=
  match walk files start parts with
  | .error e => .error e
  | .ok place =>
    match files.entry? place.dropLast, files.entry? place with
    | _, some .directory => .error .isDirectory
    | some .directory, _ => .ok (files.set place (.file content))
    | some (.file _), _ => .error .notDirectory
    | none, _ => .error .notFound

end Files

end ServerDeploy
