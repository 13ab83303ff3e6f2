import ServerDeploy.Json.Display

/-! Documents: what a configuration file can hold. Besides JSON values these are dates and times and
raw bytes, and the keys of a mapping may be any scalar. -/

namespace ServerDeploy

structure Date where
  year : Nat
  month : Nat
  day : Nat
  deriving DecidableEq, Repr, Inhabited

/-- A point in time on a calendar day, in a zone given by its offset in seconds if there is one. -/
structure Timestamp where
  date : Date
  hour : Nat
  minute : Nat
  second : Nat
  microsecond : Nat
  zone : Option Int
  deriving DecidableEq, Repr, Inhabited

inductive Scalar where
  | null
  | bool (b : Bool)
  | int (n : Int)
  | num (x : Binary64)
  | text (s : String)
  | date (d : Date)
  | stamp (t : Timestamp)
  | bytes (bs : List UInt8)
  deriving DecidableEq, Repr, Inhabited

/-- A document: a scalar, a list, or a mapping in the order of its keys. -/
inductive Document where
  | scalar (s : Scalar)
  | list (items : List Document)
  | map (entries : List (Scalar × Document))
  deriving Inhabited, Repr

namespace Scalar

/-- Truth values count as the numbers zero and one where keys are compared. -/
def asInt? : Scalar → Option Int
  | .bool b => some (if b then 1 else 0)
  | .int n => some n
  | _ => none

/-- Whether two keys name the same entry: numbers are compared by value, whatever their kind. -/
def sameKey (a b : Scalar) : Bool :=
  match a.asInt?, b.asInt?, a, b with
  | some m, some n, _, _ => m == n
  | some m, none, _, .num y => y.equalsInt m
  | none, some n, .num x, _ => x.equalsInt n
  | _, _, .num x, .num y => x.equals y
  | _, _, _, _ => a == b

/-- Null, false, zero and empty texts count as nothing. -/
def isSomething : Scalar → Bool
  | .null => false
  | .bool b => b
  | .int n => n != 0
  | .num x => !x.isZero
  | .text s => !s.isEmpty
  | .bytes bs => !bs.isEmpty
  | .date _ | .stamp _ => true

end Scalar

abbrev Entries := List (Scalar × Document)

namespace Entries

def get? (key : Scalar) : Entries → Option Document
  | [] => none
  | (k, v) :: rest => if k.sameKey key then some v else get? key rest

/-- Sets an entry. A key that is already there keeps its place and its form. -/
def set (key : Scalar) (value : Document) : Entries → Entries
  | [] => [(key, value)]
  | (k, v) :: rest =>
    if k.sameKey key then (k, value) :: rest else (k, v) :: set key value rest

/-- The mapping made by setting entries one after the other. -/
def ofList (entries : List (Scalar × Document)) : Entries :=
  entries.foldl (fun es (k, v) => Entries.set k v es) []

end Entries

namespace Document

def null : Document := .scalar .null

def text (s : String) : Document := .scalar (.text s)

/-- The value under a text key. -/
def member? (name : String) : Document → Option Document
  | .map entries => Entries.get? (.text name) entries
  | _ => none

/-- Null, false, zero and whatever is empty count as nothing. -/
def isSomething : Document → Bool
  | .scalar s => s.isSomething
  | .list items => !items.isEmpty
  | .map entries => !entries.isEmpty

mutual

def ofJson : Json → Document
  | .null => .scalar .null
  | .bool b => .scalar (.bool b)
  | .int n => .scalar (.int n)
  | .num x => .scalar (.num x)
  | .str s => .scalar (.text s)
  | .arr items => .list (ofJsonItems items)
  | .obj members => .map (ofJsonMembers members)

def ofJsonItems : List Json → List Document
  | [] => []
  | v :: rest => ofJson v :: ofJsonItems rest

def ofJsonMembers : List (String × Json) → List (Scalar × Document)
  | [] => []
  | (k, v) :: rest => (.text k, ofJson v) :: ofJsonMembers rest

end

end Document

end ServerDeploy
