import ServerDeploy.Text.Split

/-! File paths. A path is a root mark and its parts; empty parts and single points vanish when it is
read, and two points stay until the path is resolved. -/

namespace ServerDeploy

/-- A path: absolute when it has a root mark, which is one slash or exactly two. -/
structure Path where
  root : String
  parts : List String
  deriving DecidableEq, Repr, Inhabited

namespace Path

/-- Parts that say nothing about the place. -/
def isVoid (part : List Char) : Bool := part.isEmpty || part == ['.']

/-- The root mark of a path text: two slashes count only when a third does not follow. -/
def rootOf : List Char → String
  | '/' :: '/' :: '/' :: _ => "/"
  | '/' :: '/' :: _ => "//"
  | '/' :: _ => "/"
  | _ => ""

def ofText (s : String) : Path :=
  let parts := (splitAtChar '/' s.toList).filter fun part => !isVoid part
  ⟨rootOf s.toList, parts.map String.ofList⟩

def isAbsolute (p : Path) : Bool := p.root != ""

/-- The text of a path; a point stands for the path without parts. -/
def text (p : Path) : String :=
  if p.root == "" && p.parts.isEmpty then "." else p.root ++ "/".intercalate p.parts

def name (p : Path) : String := p.parts.getLast?.getD ""

def parent (p : Path) : Path := { p with parts := p.parts.dropLast }

/-- The second path as seen from the first; an absolute one stands for itself. -/
def join (p q : Path) : Path :=
  if q.isAbsolute then q else { p with parts := p.parts ++ q.parts }

def child (p : Path) (s : String) : Path := p.join (ofText s)

/-- The path with its last part replaced. -/
def withName (p : Path) (name : String) : Path :=
  { p with parts := p.parts.dropLast ++ [name] }

/-- Two points removed together with the part before them; at the root they vanish. -/
def resolveParts (parts : List String) : List String :=
  parts.foldl (fun done part => if part == ".." then done.dropLast else done ++ [part]) []

def place (directory : Path) (p : Path) : List String :=
  resolveParts (directory.join p).parts

end Path

end ServerDeploy
