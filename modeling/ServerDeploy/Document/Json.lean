import ServerDeploy.Document.Basic
import ServerDeploy.Json.Writer
import ServerDeploy.Decimal.Reader

/-! Documents as JSON. Keys that are numbers, truth values or null become texts; dates, times and
bytes have no JSON form, and neither have integers too long to be written in decimal. -/

namespace ServerDeploy

/-- Whether an integer has more decimal digits than may be written. -/
def isOversize (n : Int) : Bool := Nat.pow 10 maxIntegerDigits ≤ n.natAbs

/-- Why a document has no JSON form. -/
inductive Unwritable where
  | wrongType
  | oversizeInteger
  deriving DecidableEq, Repr

namespace Scalar

def toJson : Scalar → Except Unwritable Json
  | .null => .ok .null
  | .bool b => .ok (.bool b)
  | .int n => if isOversize n then .error .oversizeInteger else .ok (.int n)
  | .num x => .ok (.num x)
  | .text s => .ok (.str s)
  | .date _ | .stamp _ | .bytes _ => .error .wrongType

def memberName : Scalar → Except Unwritable String
  | .text s => .ok s
  | .num x => .ok (x.text jsonLayout)
  | .bool b => .ok (Json.boolText b)
  | .null => .ok "null"
  | .int n => if isOversize n then .error .oversizeInteger else .ok (toString n)
  | .date _ | .stamp _ | .bytes _ => .error .wrongType

def isOversizeInteger : Scalar → Bool
  | .int n => isOversize n
  | _ => false

end Scalar

namespace Document

mutual

def toJson : Document → Except Unwritable Json
  | .scalar s => s.toJson
  | .list items => (toJsonItems items).map .arr
  | .map entries => (toJsonMembers entries).map .obj

def toJsonItems : List Document → Except Unwritable (List Json)
  | [] => .ok []
  | v :: rest => do
    let v ← toJson v
    let rest ← toJsonItems rest
    pure (v :: rest)

def toJsonMembers : List (Scalar × Document) → Except Unwritable (List (String × Json))
  | [] => .ok []
  | (k, v) :: rest => do
    let k ← k.memberName
    let v ← toJson v
    let rest ← toJsonMembers rest
    pure ((k, v) :: rest)

end

mutual

/-- Whether an integer too long to be shown stands anywhere in the document. -/
def hasOversizeInteger : Document → Bool
  | .scalar s => s.isOversizeInteger
  | .list items => anyOversize items
  | .map entries => anyEntryOversize entries

def anyOversize : List Document → Bool
  | [] => false
  | v :: rest => hasOversizeInteger v || anyOversize rest

def anyEntryOversize : List (Scalar × Document) → Bool
  | [] => false
  | (k, v) :: rest => k.isOversizeInteger || hasOversizeInteger v || anyEntryOversize rest

end

end Document

end ServerDeploy
