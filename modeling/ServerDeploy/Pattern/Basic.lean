import ServerDeploy.Text.Blank
import ServerDeploy.Text.Digit
import ServerDeploy.Text.Word

/-! Name patterns and the texts they match. A pattern takes a place in a text to the places where a
match from there may end; it matches a whole text when the end is among those of the start. -/

namespace ServerDeploy

/-- Classes of characters with names of their own. -/
inductive CharKind where
  | digit
  | word
  | blank
  deriving DecidableEq, Repr

def CharKind.test (kind : CharKind) (c : Char) : Bool :=
  match kind with
  | .digit => isDecimalDigit c
  | .word => isWordChar c
  | .blank => isBlank c

inductive SetItem where
  | range (low high : Nat)
  | kind (k : CharKind) (negated : Bool)
  deriving DecidableEq, Repr

def SetItem.test (item : SetItem) (c : Char) : Bool :=
  match item with
  | .range low high => low ≤ c.toNat && c.toNat ≤ high
  | .kind k negated => k.test c != negated

inductive CharTest where
  /-- Anything but a line feed. -/
  | any
  | set (negated : Bool) (items : List SetItem)
  deriving DecidableEq, Repr

namespace CharTest

def one (c : Char) : CharTest := .set false [.range c.toNat c.toNat]

def test (t : CharTest) (c : Char) : Bool :=
  match t with
  | .any => c != '\n'
  | .set negated items => items.any (·.test c) != negated

end CharTest

/-- Conditions on a place in a text. -/
inductive Anchor where
  | start
  /-- The end, or before a line feed that ends the text. -/
  | lineEnd
  | textEnd
  | wordEdge (negated : Bool)
  deriving DecidableEq, Repr

inductive Pattern where
  | empty
  | never
  | char (t : CharTest)
  | anchor (a : Anchor)
  | seq (p q : Pattern)
  | alt (p q : Pattern)
  | group (p : Pattern)
  | repeated (least : Nat) (most : Option Nat) (p : Pattern)
  deriving DecidableEq, Repr, Inhabited

def Anchor.holds (a : Anchor) (text : List Char) (i : Nat) : Bool :=
  match a with
  | .start => i == 0
  | .textEnd => i == text.length
  | .lineEnd => i == text.length || (i + 1 == text.length && text[i]? == some '\n')
  | .wordEdge negated =>
    let before := i != 0 && (text[i - 1]?.any isWordChar)
    let after := text[i]?.any isWordChar
    (before != after) != negated

namespace Pattern

/-- Numbers without repetitions. -/
def distinct (places : List Nat) : List Nat := places.eraseDups

/-- The places reached from some places by exactly `n` steps. -/
def exactly (step : Nat → List Nat) : Nat → List Nat → List Nat
  | 0, places => places
  | n + 1, places => exactly step n (distinct (places.flatMap step))

/-- The places reached from some places by at most `n` steps. -/
def atMost (step : Nat → List Nat) : Nat → List Nat → List Nat
  | 0, places => places
  | n + 1, places => atMost step n (distinct (places ++ places.flatMap step))

/-- The ends of the matches that begin at a place. More repetitions than the text has places lead
nowhere new. -/
def ends (text : List Char) : Pattern → Nat → List Nat
  | .empty, i => [i]
  | .never, _ => []
  | .char t, i => if text[i]?.any t.test then [i + 1] else []
  | .anchor a, i => if a.holds text i then [i] else []
  | .seq p q, i => distinct ((ends text p i).flatMap (ends text q))
  | .alt p q, i => distinct (ends text p i ++ ends text q i)
  | .group p, i => ends text p i
  | .repeated least most p, i =>
    let bound := text.length + 1
    let more := match most with
      | some n => min (n - least) bound
      | none => bound
    atMost (ends text p) more (exactly (ends text p) (min least bound) [i])

/-- Whether the pattern matches the whole text. -/
def fits (p : Pattern) (s : String) : Bool :=
  (p.ends s.toList 0).contains s.toList.length

end Pattern

end ServerDeploy
