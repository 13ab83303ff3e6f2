import ServerDeploy.Model.Operation

/-! Resource descriptors: what is to be added, with nested children and commands around it, and how
they are read from a configuration document. -/

namespace ServerDeploy

/-- Commands run around the adding of a resource, one by one or as one composite. -/
structure Hook where
  commands : List String
  batch : Bool
  deriving DecidableEq, Repr, Inhabited

/-- A configuration resource to add, with its children in declaration order. -/
inductive Resource where
  | mk (address : Option String) (properties : List (String × PropertyValue)) (enable : Bool)
      (addIfAbsent : Bool) (children : List Resource) (beforeAdd afterAdd : Option Hook)
  deriving Repr, Inhabited

namespace Resource

def address : Resource → Option String
  | .mk a _ _ _ _ _ _ => a

def properties : Resource → List (String × PropertyValue)
  | .mk _ p _ _ _ _ _ => p

def enable : Resource → Bool
  | .mk _ _ e _ _ _ _ => e

def addIfAbsent : Resource → Bool
  | .mk _ _ _ a _ _ _ => a

def children : Resource → List Resource
  | .mk _ _ _ _ c _ _ => c

def beforeAdd : Resource → Option Hook
  | .mk _ _ _ _ _ b _ => b

def afterAdd : Resource → Option Hook
  | .mk _ _ _ _ _ _ a => a

/-- Sets the value of a property: a key that is already there keeps its place. -/
def setProperty (key : String) (v : PropertyValue) :
    List (String × PropertyValue) → List (String × PropertyValue)
  | [] => [(key, v)]
  | (k, w) :: rest => if k = key then (k, v) :: rest else (k, w) :: setProperty key v rest

def propertyMap (r : Resource) : List (String × PropertyValue) :=
  r.properties.foldl (fun done (k, v) => setProperty k v done) []

def optionNames : List String :=
  ["address", "properties", "enable-resource", "add-if-absent", "resources", "before-add",
    "after-add"]

/-- An option name with hyphens in place of low lines. -/
def hyphenated (name : String) : String :=
  String.ofList (name.toList.map fun c => if c == '_' then '-' else c)

/-- An option name with low lines in place of hyphens. -/
def underscored (name : String) : String :=
  String.ofList (name.toList.map fun c => if c == '-' then '_' else c)

/-- The value of an option under its hyphenated name, else under the other spelling. -/
def option? (name : String) (entries : Entries) : Option Document :=
  match entries.get? (.text name) with
  | some d => some d
  | none => entries.get? (.text (underscored name))

/-- The display of a document in a message; integers too long to be shown are an error of their
own. -/
def shown (d : Document) : Except Fault String :=
  if d.hasOversizeInteger then .error .oversizeWriting else .ok d.display

def named (d : Document) : Except Fault String :=
  if d.hasOversizeInteger then .error .oversizeWriting else .ok d.asText

def refuse {α : Type} (d : Document) (problem : String → ConfigurationProblem) : Except Fault α := do
  let s ← shown d
  .error (.configuration (problem s))

/-- The option names of a mapping that are unknown, sorted. A key that is no text cannot be an
option. -/
def unknownOptions : Entries → Except Fault (List String)
  | [] => .ok []
  | (.text k, _) :: rest => do
    let others ← unknownOptions rest
    let name := hyphenated k
    if optionNames.contains name || others.contains name then pure others
    else pure (name :: others)
  | _ :: _ => .error .shape

def addressText (address : Option String) : String := address.getD "None"

/-- One property of a resource. Dates and other values without a JSON form are refused. -/
def readProperty (address : Option String) (key : Scalar) (value : Document) :
    Except Fault (String × PropertyValue) := do
  let name ← named (.scalar key)
  match PropertyValue.ofDocument value with
  | .ok v => pure (name, v)
  | .error _ => refuse value (.unsupportedProperty name (addressText address))

/-- The properties in order, or the first problem. -/
def readProperties (address : Option String) :
    Entries → Except Fault (List (String × PropertyValue))
  | [] => .ok []
  | (key, value) :: rest => do
    let p ← readProperty address key value
    let ps ← readProperties address rest
    pure (p :: ps)

/-- The texts of all items, or the first problem. -/
def commandTexts : List Document → Except Fault (List String)
  | [] => .ok []
  | d :: rest => do
    let s ← named d
    let ss ← commandTexts rest
    pure (s :: ss)

/-- A hook: a list of commands, or a mapping with commands and the choice to run them as a batch. -/
def readHook (d : Document) : Except Fault (Option Hook) :=
  match d with
  | .scalar .null => .ok none
  | .list items => (commandTexts items).map fun commands => some ⟨commands, false⟩
  | .map entries =>
    let commands := (Entries.get? (.text "commands") entries).getD .null
    let batch := ((Entries.get? (.text "batch") entries).getD .null).isSomething
    if !commands.isSomething then .ok (some ⟨[], batch⟩)
    else match commands with
      | .list items => (commandTexts items).map fun commands => some ⟨commands, batch⟩
      | _ => .error (.configuration .commandsNotList)
  | .scalar _ => refuse d .invalidHook

def readHookOption (name : String) (entries : Entries) : Except Fault (Option Hook) :=
  readHook ((option? name entries).getD .null)

def readAddress (entries : Entries) : Except Fault (Option String) :=
  match (entries.get? (.text "address")).getD .null with
  | .scalar .null => .ok none
  | .scalar (.text s) => .ok (some s)
  | d => refuse d .addressNotText

/-- The properties option: a mapping, or anything that counts as nothing. -/
def readPropertyOption (address : Option String) (entries : Entries) : Except Fault Entries :=
  let d := (entries.get? (.text "properties")).getD .null
  if !d.isSomething then .ok []
  else match d with
    | .map properties => .ok properties
    | _ => .error (.configuration (.propertiesNotMapping (addressText address)))

/-- The children option: a list, or anything that counts as nothing. -/
def readChildrenOption (address : Option String) (entries : Entries) :
    Except Fault (List Document) :=
  let d := (entries.get? (.text "resources")).getD .null
  if !d.isSomething then .ok []
  else match d with
    | .list items => .ok items
    | _ => .error (.configuration (.childrenNotList (addressText address)))

/-- A switch is on when its value counts as something. -/
def switch (name : String) (entries : Entries) : Bool :=
  ((option? name entries).getD .null).isSomething

def addressOrNone (address : Option String) : Option String :=
  address.filter fun s => !s.isEmpty

mutual

/-- Reads a resource. The first argument bounds the nesting. -/
def read : Nat → Document → Except Fault Resource
  | 0, _ => .error .shape
  | depth + 1, d =>
    match d with
    | .map entries => do
      let unknown ← unknownOptions entries
      if !unknown.isEmpty then
        throw (.configuration (.unknownOptions (unknown.mergeSort fun a b => !decide (b < a))))
      let address ← readAddress entries
      let properties ← readPropertyOption address entries
      let children ← readChildrenOption address entries
      let properties ← readProperties address properties
      let children ← readList depth children
      let beforeAdd ← readHookOption "before-add" entries
      let afterAdd ← readHookOption "after-add" entries
      pure (.mk (addressOrNone address) properties (switch "enable-resource" entries)
        (switch "add-if-absent" entries) children beforeAdd afterAdd)
    | d => refuse d .resourceNotMapping

def readList (depth : Nat) : List Document → Except Fault (List Resource)
  | [] => .ok []
  | d :: rest => do
    let r ← read depth d
    let rs ← readList depth rest
    pure (r :: rs)

end

end Resource

mutual

/-- How deep lists and mappings are nested in a document. -/
def Document.depth : Document → Nat
  | .scalar _ => 1
  | .list items => Document.depthOfItems items + 1
  | .map entries => Document.depthOfEntries entries + 1

def Document.depthOfItems : List Document → Nat
  | [] => 0
  | d :: rest => max d.depth (Document.depthOfItems rest)

def Document.depthOfEntries : List (Scalar × Document) → Nat
  | [] => 0
  | (_, d) :: rest => max d.depth (Document.depthOfEntries rest)

end

namespace Resource

/-- Reads a configuration: a list of resources, or a mapping that holds one. -/
def parse (d : Document) : Except Fault (List Resource) :=
  let d := match d with
    | .map entries => (Entries.get? (.text "resources") entries).getD (.list [])
    | d => d
  match d with
  | .list items => readList d.depth items
  | _ => .error (.configuration .resourcesNotList)

/-- Splits `key=value` options at their first equals sign; a repeated key takes the last value. -/
def readOptions (options : List String) : Except Fault (List (String × String)) :=
  options.foldlM (fun done option => do
    match cutAtChar '=' option.toList with
    | (key, some value) =>
      if key.isEmpty then .error (.configuration (.malformedProperty option))
      else
        let key := String.ofList key
        let value := String.ofList value
        if done.any fun (k, _) => k == key then
          pure (done.map fun (k, v) => if k == key then (k, value) else (k, v))
        else pure (done ++ [(key, value)])
    | (_, none) => .error (.configuration (.malformedProperty option))) []

/-- A single resource from command line options. -/
def ofOptions (address : Option String) (options : List String) (enable addIfAbsent : Bool) :
    Except Fault Resource := do
  let properties ← readOptions options
  pure (.mk (addressOrNone address) (properties.map fun (k, v) => (k, .ofText v)) enable addIfAbsent
    [] none none)

end Resource

end ServerDeploy
