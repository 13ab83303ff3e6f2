import ServerDeploy.Text.Split
import ServerDeploy.Yaml.Tag
import ServerDeploy.Yaml.Token

/-! The node that a text of tokens describes: scalars, sequences and mappings, with tags resolved and
aliases replaced by the nodes they stand for. -/

namespace ServerDeploy

namespace Yaml

inductive Node where
  | scalar (tag : Tag) (text : List Char)
  | sequence (tag : Tag) (items : List Node)
  | mapping (tag : Tag) (pairs : List (Node × Node))
  deriving Inhabited

/-- Tokens still to come, the anchors met so far, and the tag handles of the document. -/
structure NodeReader where
  tokens : List Token
  anchors : List (List Char × Node)
  handles : List (List Char × List Char)

namespace NodeReader

def peek (s : NodeReader) : Token := s.tokens.head?.getD .streamEnd

def drop (s : NodeReader) : NodeReader := { s with tokens := s.tokens.drop 1 }

def defaultHandles : List (List Char × List Char) :=
  [(['!'], ['!']), (['!', '!'], standardTags)]

/-- The properties in front of a node: an anchor and a tag, in either order. -/
def properties (s : NodeReader) : Option (List Char) × Option (Option (List Char) × List Char) × NodeReader :=
  match s.tokens with
  | .anchor a :: .tag h t :: rest => (some a, some (h, t), { s with tokens := rest })
  | .tag h t :: .anchor a :: rest => (some a, some (h, t), { s with tokens := rest })
  | .anchor a :: rest => (some a, none, { s with tokens := rest })
  | .tag h t :: rest => (none, some (h, t), { s with tokens := rest })
  | _ => (none, none, s)

/-- The full name of a tag, if its handle is known. The lone mark leaves the kind open. -/
def tagName? (s : NodeReader) (tag : Option (List Char) × List Char) : Option (List Char) :=
  match tag with
  | (none, suffix) => some suffix
  | (some handle, suffix) =>
    (s.handles.find? fun (h, _) => h == handle).map fun (_, full) => full ++ suffix

def register (s : NodeReader) (anchor : Option (List Char)) (n : Node) : NodeReader :=
  match anchor with
  | some a => { s with anchors := (a, n) :: s.anchors }
  | none => s

def scalarTag (name : Option (List Char)) (plain : Bool) (text : List Char) : Tag :=
  match name with
  | none => if plain then .ofPlain text else .str
  | some ['!'] => .ofPlain text
  | some name => .ofName name

def collectionTag (name : Option (List Char)) (default : Tag) : Tag :=
  match name with
  | none => default
  | some ['!'] => default
  | some name => .ofName name

def emptyNode : Node := .scalar .null []

inductive Context where
  | block
  | blockOrIndentless
  | flow
  deriving DecidableEq

mutual

def node : Nat → Context → NodeReader → Option (Node × NodeReader)
  | 0, _, _ => none
  | fuel + 1, context, s =>
    match s.peek with
    | .alias name =>
      (s.anchors.find? fun (a, _) => a == name).map fun (_, n) => (n, s.drop)
    | _ => do
      let (anchor, tag, s) := s.properties
      let name ← match tag with
        | none => some none
        | some t => (s.tagName? t).map some
      if anchor.any fun a => s.anchors.any fun (b, _) => a == b then none
      else
        let (n, s) ← match s.peek with
          | .scalar text plain => some (Node.scalar (scalarTag name plain text) text, s.drop)
          | .flowSequenceStart => do
            let (items, s) ← flowItems fuel true s.drop
            some (Node.sequence (collectionTag name .seq) items, s)
          | .flowMappingStart => do
            let (pairs, s) ← flowPairs fuel true s.drop
            some (Node.mapping (collectionTag name .map) pairs, s)
          | .blockEntry =>
            if context == .blockOrIndentless then do
              let (items, s) ← looseItems fuel s
              some (Node.sequence (collectionTag name .seq) items, s)
            else if anchor.isSome || name.isSome then some (Node.scalar (scalarTag name true []) [], s)
            else none
          | .blockSequenceStart =>
            if context == .flow then none
            else do
              let (items, s) ← blockItems fuel s.drop
              some (Node.sequence (collectionTag name .seq) items, s)
          | .blockMappingStart =>
            if context == .flow then none
            else do
              let (pairs, s) ← blockPairs fuel s.drop
              some (Node.mapping (collectionTag name .map) pairs, s)
          | _ =>
            if anchor.isSome || name.isSome then some (Node.scalar (scalarTag name true []) [], s)
            else none
        some (n, s.register anchor n)

def blockItems : Nat → NodeReader → Option (List Node × NodeReader)
  | 0, _ => none
  | fuel + 1, s =>
    match s.peek with
    | .blockEntry => do
      let s := s.drop
      let (n, s) ← match s.peek with
        | .blockEntry | .blockEnd => some (emptyNode, s)
        | _ => node fuel .block s
      let (ns, s) ← blockItems fuel s
      pure (n :: ns, s)
    | .blockEnd => some ([], s.drop)
    | _ => none

/-- The entries of a sequence that is not indented more than its key. -/
def looseItems : Nat → NodeReader → Option (List Node × NodeReader)
  | 0, _ => none
  | fuel + 1, s =>
    match s.peek with
    | .blockEntry => do
      let s := s.drop
      let (n, s) ← match s.peek with
        | .blockEntry | .key | .value | .blockEnd => some (emptyNode, s)
        | _ => node fuel .block s
      let (ns, s) ← looseItems fuel s
      pure (n :: ns, s)
    | _ => some ([], s)

def blockPairs : Nat → NodeReader → Option (List (Node × Node) × NodeReader)
  | 0, _ => none
  | fuel + 1, s =>
    match s.peek with
    | .key => do
      let s := s.drop
      let (k, s) ← match s.peek with
        | .key | .value | .blockEnd => some (emptyNode, s)
        | _ => node fuel .blockOrIndentless s
      let (v, s) ← match s.peek with
        | .value =>
          let s := s.drop
          match s.peek with
          | .key | .value | .blockEnd => some (emptyNode, s)
          | _ => node fuel .blockOrIndentless s
        | _ => some (emptyNode, s)
      let (pairs, s) ← blockPairs fuel s
      pure ((k, v) :: pairs, s)
    | .blockEnd => some ([], s.drop)
    | _ => none

def flowValue : Nat → Token → NodeReader → Option (Node × NodeReader)
  | 0, _, _ => none
  | fuel + 1, closing, s =>
    match s.peek with
    | .value =>
      let s := s.drop
      if s.peek == .flowEntry || s.peek == closing then some (emptyNode, s) else node fuel .flow s
    | _ => some (emptyNode, s)

def flowKey : Nat → Token → NodeReader → Option (Node × NodeReader)
  | 0, _, _ => none
  | fuel + 1, closing, s =>
    if s.peek == .value || s.peek == .flowEntry || s.peek == closing then some (emptyNode, s)
    else node fuel .flow s

/-- The entries of a flow sequence, up to its end. A pair among them is a mapping of its own. -/
def flowItems : Nat → Bool → NodeReader → Option (List Node × NodeReader)
  | 0, _, _ => none
  | fuel + 1, first, s =>
    match s.peek with
    | .flowSequenceEnd => some ([], s.drop)
    | t => do
      let s ← if first then some s else if t == .flowEntry then some s.drop else none
      match s.peek with
      | .flowSequenceEnd => some ([], s.drop)
      | .key => do
        let (k, s) ← flowKey fuel .flowSequenceEnd s.drop
        let (v, s) ← flowValue fuel .flowSequenceEnd s
        let (ns, s) ← flowItems fuel false s
        pure (.mapping .map [(k, v)] :: ns, s)
      | _ => do
        let (n, s) ← node fuel .flow s
        let (ns, s) ← flowItems fuel false s
        pure (n :: ns, s)

/-- The pairs of a flow mapping, up to its end. A lone node is a key without a value. -/
def flowPairs : Nat → Bool → NodeReader → Option (List (Node × Node) × NodeReader)
  | 0, _, _ => none
  | fuel + 1, first, s =>
    match s.peek with
    | .flowMappingEnd => some ([], s.drop)
    | t => do
      let s ← if first then some s else if t == .flowEntry then some s.drop else none
      match s.peek with
      | .flowMappingEnd => some ([], s.drop)
      | .key => do
        let (k, s) ← flowKey fuel .flowMappingEnd s.drop
        let (v, s) ← flowValue fuel .flowMappingEnd s
        let (pairs, s) ← flowPairs fuel false s
        pure ((k, v) :: pairs, s)
      | _ => do
        let (n, s) ← node fuel .flow s
        let (pairs, s) ← flowPairs fuel false s
        pure ((n, emptyNode) :: pairs, s)

end

/-- One directive: a version, which may be given once and must be 1, or the meaning of a handle. -/
def directive (versioned : Bool) (s : NodeReader) (name value : List Char) :
    Option (Bool × NodeReader) :=
  match String.ofList name, words value with
  | "YAML", [version] =>
    if versioned then none
    else match cutAtChar '.' version with
      | (['1'], some minor) => if minor.isEmpty || !minor.all Char.isDigit then none else some (true, s)
      | _ => none
  | "YAML", _ => none
  | "TAG", [handle, full] =>
    if s.handles.any fun (h, _) => h == handle then none
    else some (versioned, { s with handles := s.handles ++ [(handle, full)] })
  | "TAG", _ => none
  | _, _ => some (versioned, s)

def directives : Nat → Bool → NodeReader → Option NodeReader
  | 0, _, s => some s
  | fuel + 1, versioned, s =>
    match s.peek with
    | .directive name value => do
      let (versioned, s) ← directive versioned s.drop name value
      directives fuel versioned s
    | _ => some s

/-- The handles of a document with the defaults for those that were not given. -/
def completeHandles (s : NodeReader) : NodeReader :=
  let missing := defaultHandles.filter fun (h, _) => !s.handles.any fun (g, _) => g == h
  { s with handles := s.handles ++ missing }

def root (explicit : Bool) (s : NodeReader) : Option (Node × NodeReader) :=
  match explicit, s.peek with
  | true, .directive _ _ | true, .documentStart | true, .documentEnd | true, .streamEnd =>
    some (emptyNode, s)
  | _, _ => node (4 * s.tokens.length + 4) .block s

/-- The text after end marks must be empty: there is at most one document. -/
def atEnd (s : NodeReader) : Bool :=
  match s.tokens.dropWhile (· == .documentEnd) with
  | [] => true
  | t :: _ => t == .streamEnd

end NodeReader

/-- The node that a text describes, nothing inside if the text holds no document, or nothing at all if
the text is no YAML. -/
def node? (cs : List Char) : Option (Option Node) := do
  let tokens ← tokens? cs
  let s : NodeReader := ⟨tokens, [], []⟩
  match s.peek with
  | .streamEnd => pure none
  | .directive _ _ | .documentStart =>
    let s ← NodeReader.directives tokens.length false s
    match s.peek with
    | .documentStart =>
      let (n, s) ← NodeReader.root true s.completeHandles.drop
      if s.atEnd then pure (some n) else none
    | _ => none
  | _ =>
    let (n, s) ← NodeReader.root false s.completeHandles
    if s.atEnd then pure (some n) else none

end Yaml

end ServerDeploy
