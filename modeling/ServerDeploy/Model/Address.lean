import ServerDeploy.Json.Display
import ServerDeploy.Text.Split

/-! Hierarchical resource addresses: ordered `key=value` segments from the root of the management
tree. The last segment names the child, everything before it is the parent. -/

namespace ServerDeploy

/-- An address with segment values of some kind. Values read from a wire model may be any JSON
value; all addresses this library makes have texts. -/
structure AddressOf (α : Type) where
  segments : List (String × α)
  deriving DecidableEq, Repr, Inhabited

abbrev Address := AddressOf String

abbrev WireAddress := AddressOf Json

namespace AddressOf

variable {α : Type}

def empty : AddressOf α := ⟨[]⟩

def isEmpty (a : AddressOf α) : Bool := a.segments.isEmpty

def size (a : AddressOf α) : Nat := a.segments.length

def push (a : AddressOf α) (key : String) (value : α) : AddressOf α :=
  ⟨a.segments ++ [(key, value)]⟩

def append (a b : AddressOf α) : AddressOf α := ⟨a.segments ++ b.segments⟩

def child? (a : AddressOf α) : Option (String × α) := a.segments.getLast?

/-- All segments but the last. -/
def parent? (a : AddressOf α) : Option (AddressOf α) :=
  if a.segments.isEmpty then none else some ⟨a.segments.dropLast⟩

end AddressOf

/-- Values that may stand in a segment: they have a text in paths and a JSON form on the wire. -/
class SegmentValue (α : Type) where
  text : α → String
  json : α → Json

instance : SegmentValue String := ⟨id, .str⟩

instance : SegmentValue Json := ⟨Json.text, id⟩

namespace AddressOf

variable {α : Type} [SegmentValue α]

/-- Every segment after a slash; a slash alone for the root. -/
def text (a : AddressOf α) : String :=
  if a.segments.isEmpty then "/"
  else String.join (a.segments.map fun (k, v) => "/" ++ k ++ "=" ++ SegmentValue.text v)

/-- The wire form: a list of objects with one member each. -/
def model (a : AddressOf α) : Json :=
  .arr (a.segments.map fun (k, v) => .obj [(k, SegmentValue.json v)])

end AddressOf

namespace Address

def profileKey : String := "profile"

/-- The segment written by one part of an address text: a key and a value, neither empty, with a
single equals sign between them. -/
def readSegment? (part : List Char) : Option (String × String) :=
  match splitAtChar '=' part with
  | [key, value] =>
    if key.isEmpty || value.isEmpty then none
    else some (String.ofList key, String.ofList value)
  | _ => none

/-- The segments written by the parts, or the first part that is none. -/
def readSegments : List (List Char) → Except String (List (String × String))
  | [] => .ok []
  | part :: parts =>
    match readSegment? part with
    | none => .error (String.ofList part)
    | some s => (readSegments parts).map (s :: ·)

/-- Reads a comma separated address, with the profile in front if there is one. The error is the
first part that is no segment. -/
def parse (profile : Option String) (s : String) : Except String Address :=
  (readSegments (splitAtChar ',' s.toList)).map fun read =>
    ⟨(profile.map fun p => (profileKey, p)).toList ++ read⟩

def write (segments : List (String × String)) : String :=
  ",".intercalate (segments.map fun (k, v) => k ++ "=" ++ v)

end Address

namespace WireAddress

def nodeSegments : List Json → Option (List (String × Json))
  | [] => some []
  | .obj members :: rest => (nodeSegments rest).map (members ++ ·)
  | _ :: _ => none

/-- The address of a wire model: a list of objects, or nothing for the root. A value of another shape
has none. -/
def ofModel? (model : Json) : Option WireAddress :=
  if !model.isSomething then some .empty
  else match model with
    | .arr nodes => (nodeSegments nodes).map (⟨·⟩)
    | _ => none

end WireAddress

end ServerDeploy
