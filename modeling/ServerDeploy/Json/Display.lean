import ServerDeploy.Json.Basic
import ServerDeploy.Decimal.Display
import ServerDeploy.Text.Quoted

/-! The display of values inside messages: `None`, `True`, quoted texts, items in brackets and
members in braces, each separated by a comma and a space. -/

namespace ServerDeploy

def displayBool (b : Bool) : String := if b then "True" else "False"

def enclose (opening closing : String) (parts : List String) : String :=
  opening ++ ", ".intercalate parts ++ closing

namespace Json

mutual

/-- The display of a value as part of a larger one. -/
def display : Json → String
  | .null => "None"
  | .bool b => displayBool b
  | .int n => toString n
  | .num x => x.text displayLayout
  | .str s => quoted s
  | .arr items => enclose "[" "]" (displayItems items)
  | .obj members => enclose "\x7b" "\x7d" (displayMembers members)

def displayItems : List Json → List String
  | [] => []
  | v :: rest => display v :: displayItems rest

def displayMembers : List (String × Json) → List String
  | [] => []
  | (k, v) :: rest => (quoted k ++ ": " ++ display v) :: displayMembers rest

end

/-- The display of a value on its own: a text stands for itself. -/
def text : Json → String
  | .str s => s
  | v => v.display

end Json

end ServerDeploy
