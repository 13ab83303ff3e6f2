import ServerDeploy.Document.Json
import ServerDeploy.Document.Display
import ServerDeploy.TypedLiteral.Reader

/-! Attribute values of resource properties: plain texts and typed literals. Which of the two a
configured value is, is decided once, when the configuration is read. -/

namespace ServerDeploy

inductive PropertyValue where
  | text (s : String)
  | literal (raw : String)
  deriving DecidableEq, Repr, Inhabited

/-- A value as it is handed to an operation: already classified, or still a document. -/
inductive RawValue where
  | value (v : PropertyValue)
  | document (d : Document)
  deriving Repr

namespace PropertyValue

def literalMark : List Char := ['!', '!']

/-- A text is a typed literal when it starts with the mark, and stands for itself otherwise. -/
def ofText (s : String) : PropertyValue :=
  if literalMark.isPrefixOf s.toList then .literal (String.ofList (s.toList.drop 2)) else .text s

/-- Classifies a document. Nothing is the empty text; any other value that is no text is the literal
that its JSON text makes. -/
def ofDocument : Document → Except Unwritable PropertyValue
  | .scalar .null => .ok (.text "")
  | .scalar (.text s) => .ok (ofText s)
  | d => d.toJson.map fun j => .literal j.write

def ofRaw : RawValue → Except Unwritable PropertyValue
  | .value v => .ok v
  | .document d => ofDocument d

def resolve : PropertyValue → Except (String × TypedLiteral.Failure) Json
  | .text s => .ok (.str s)
  | .literal raw => (TypedLiteral.parse raw).mapError fun failure => (raw, failure)

def display : PropertyValue → String
  | .text s => "StringLiteral(value=" ++ quoted s ++ ")"
  | .literal raw => "TypedLiteral(raw=" ++ quoted raw ++ ")"

end PropertyValue

def RawValue.display : RawValue → String
  | .value v => v.display
  | .document d => d.display

end ServerDeploy
