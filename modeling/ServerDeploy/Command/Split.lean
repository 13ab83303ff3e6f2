import ServerDeploy.Command.Problem
import ServerDeploy.Text.Split

/-! Cutting a command at separators that stand outside quotes and brackets. -/

namespace ServerDeploy

namespace Command

def isOpening (c : Char) : Bool := c == '[' || c == '\x7b' || c == '('

def isClosing (c : Char) : Bool := c == ']' || c == '\x7d' || c == ')'

/-- Where a scan stands: how deep in brackets, and whether inside quotes. The depth falls below zero
after brackets that close nothing. -/
structure Nesting where
  depth : Int
  quoted : Bool
  deriving DecidableEq, Repr

namespace Nesting

def outside : Nesting := ⟨0, false⟩

def step (n : Nesting) (c : Char) : Nesting :=
  if c = '"' then { n with quoted := !n.quoted }
  else if n.quoted then n
  else if isOpening c then { n with depth := n.depth + 1 }
  else if isClosing c then { n with depth := n.depth - 1 }
  else n

def isOutside (n : Nesting) : Bool := n.depth == 0 && !n.quoted

end Nesting

/-- A character put in front of the first part. -/
def extendFirst (c : Char) : List (List Char) → List (List Char)
  | [] => [[c]]
  | part :: parts => (c :: part) :: parts

/-- The parts of a text from a given nesting on, and the nesting at its end. Inside quotes a
backslash takes the next character with it. -/
def scan (sep : Char) : Nesting → List Char → List (List Char) × Nesting
  | n, [] => ([[]], n)
  | n, c :: cs =>
    match cs with
    | d :: rest =>
      if c = '\\' ∧ n.quoted then
        let (parts, final) := scan sep n rest
        (extendFirst c (extendFirst d parts), final)
      else
        let n := n.step c
        let (parts, final) := scan sep n (d :: rest)
        if c = sep ∧ n.isOutside then ([] :: parts, final) else (extendFirst c parts, final)
    | [] =>
      let n := n.step c
      if c = sep ∧ n.isOutside then ([[], []], n) else ([[c]], n)

/-- The parts of a text between separators outside quotes and brackets, or nothing if a quote or a
bracket is left open. -/
def splitOutside? (sep : Char) (cs : List Char) : Option (List (List Char)) :=
  let (parts, final) := scan sep .outside cs
  if final.isOutside then some parts else none

/-- The parts of a text, with the problem of an unbalanced one. -/
def split (sep : Char) (cs : List Char) : Except CommandProblem (List (List Char)) :=
  match splitOutside? sep cs with
  | some parts => .ok parts
  | none => .error (.unbalanced (String.ofList cs))

end Command

end ServerDeploy
