import ServerDeploy.Fault
import ServerDeploy.Model.Address
import ServerDeploy.Model.Property

/-! Operation descriptors: JSON objects with the name of the operation, the address it is sent to and
its parameters. -/

namespace ServerDeploy

abbrev Operation := Members

namespace Operation

def nameKey : String := "operation"

def addressKey : String := "address"

/-- The wire form of a parameter name: low lines become hyphens. -/
def wireName (name : String) : String :=
  String.ofList (name.toList.map fun c => if c == '_' then '-' else c)

def make (name : String) (address : Address) (parameters : List (String × Json)) : Operation :=
  Members.setAll [(nameKey, .str name), (addressKey, address.model)]
    (parameters.map fun (k, v) => (wireName k, v))

def add (address : Address) : Operation := make "add" address []

def remove (address : Address) (recursive : Bool) : Operation :=
  make "remove" address [("recursive", .bool recursive)]

def enable (address : Address) : Operation := make "enable" address []

def readResource (address : Address) (recursive : Bool) : Operation :=
  make "read-resource" address [("recursive", .bool recursive)]

def readAttribute (name : String) (address : Address) : Operation :=
  make "read-attribute" address [("name", .str name)]

def readChildrenNames (childType : String) (address : Address) : Operation :=
  make "read-children-names" address [("child-type", .str childType)]

def deploymentKey : String := "deployment"

def listDeployments : Operation := readChildrenNames deploymentKey .empty

/-- Sets a value along a path of member names. What stands in the way of a deeper member and is no
object is replaced by one. -/
def setPath (value : Json) : List String → Members → Members
  | [], members => members
  | [key], members => members.set key value
  | key :: rest, members =>
    let inner := match members.get? key with
      | some (.obj inner) => inner
      | _ => []
    members.set key (.obj (setPath value rest inner))

/-- The path that a property key names: its parts between commas, none of which may be empty. -/
def propertyPath? (key : String) : Option (List String) :=
  let parts := splitAtChar ',' key.toList
  if parts.any List.isEmpty then none else some (parts.map String.ofList)

def setProperty (op : Operation) (key : String) (raw : RawValue) : Except Fault Operation :=
  match propertyPath? key with
  | none => .error (.deploy (.property key raw.display))
  | some path =>
    match PropertyValue.ofRaw raw with
    | .error e => .error (.unwritable e)
    | .ok v =>
      match v.resolve with
      | .error (raw, failure) => .error (.literal raw failure)
      | .ok value => .ok (setPath value path op)

def setProperties (op : Operation) : List (String × RawValue) → Except Fault Operation
  | [] => .ok op
  | (key, raw) :: rest =>
    match setProperty op key raw with
    | .error e => .error e
    | .ok op => setProperties op rest

def addWith (address : Address) (properties : List (String × RawValue)) : Except Fault Operation :=
  setProperties (add address) properties

end Operation

end ServerDeploy
