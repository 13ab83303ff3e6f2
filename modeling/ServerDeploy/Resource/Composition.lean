import ServerDeploy.Model.Composite
import ServerDeploy.Resource.Descriptor
import ServerDeploy.Resource.Existence

/-! A resource tree as one composite: the removal of what is to be replaced, then for each node its
add, its children in declaration order, and its enable. Only the root is looked for on the server. -/

namespace ServerDeploy

namespace Resource

/-- The address text of a resource under a base: either alone, one of two equal ones, or both with a
comma between. -/
def effectiveAddress (base own : Option String) : Except DeployError String :=
  match addressOrNone base, addressOrNone own with
  | none, none => .error .missingAddress
  | none, some own => .ok own
  | some base, none => .ok base
  | some base, some own => if own = base then .ok base else .ok (base ++ "," ++ own)

/-- The effective address text of a resource and the address it writes. -/
def placeAt (profile base own : Option String) : Except Fault (String × Address) :=
  match effectiveAddress base own with
  | .error e => .error (.deploy e)
  | .ok text =>
    match Address.parse profile text with
    | .error part => .error (.deploy (.addressSegment part))
    | .ok address => .ok (text, address)

def rawProperties (r : Resource) : List (String × RawValue) :=
  r.propertyMap.map fun (k, v) => (k, .value v)

mutual

/-- Adds the steps of a node at an address, given as text too for its children. -/
def appendNode (profile : Option String) (c : Composite) (text : String) (address : Address) :
    Resource → Except Fault Composite
  | .mk own properties enable addIfAbsent children beforeAdd afterAdd => do
    let r : Resource := .mk own properties enable addIfAbsent children beforeAdd afterAdd
    let op ← Operation.addWith address (rawProperties r)
    let c ← c.addStep (.obj op)
    let c ← appendChildren profile c text children
    if enable then c.addStep (.obj (Operation.enable address)) else pure c

/-- Adds the steps of the children of a node. -/
def appendChildren (profile : Option String) (c : Composite) (text : String) :
    List Resource → Except Fault Composite
  | [] => .ok c
  | child :: rest => do
    let (childText, childAddress) ← placeAt profile (some text) child.address
    let c ← appendNode profile c childText childAddress child
    appendChildren profile c text rest

end

/-- A resource made into a composite; there is none when the resource is there already and need not
be added again. -/
structure Composed where
  address : Address
  profile : Option String
  composite : Option Composite
  deriving Repr

def composeKnown (r : Resource) (profile : Option String) (force : Bool) (text : String)
    (address : Address) (isThere : Bool) : Except Fault Composed :=
  if isThere && r.addIfAbsent then .ok ⟨address, profile, none⟩
  else if isThere && !force then .error (.deploy (.resourceExists address.text))
  else do
    let c ← if isThere then Composite.empty.addStep (.obj (Operation.remove address true))
      else .ok .empty
    let c ← appendNode profile c text address r
    pure ⟨address, profile, some c⟩

variable {σ : Type} [Endpoint σ]

def compose (client : Nat) (r : Resource) (base profile : Option String) (force : Bool) :
    Run σ Composed := do
  let (text, address) ← Run.ofExcept (placeAt profile base r.address)
  let e ← Existence.check client address
  Run.ofExcept (composeKnown r profile force text address e.found)

end Resource

end ServerDeploy
