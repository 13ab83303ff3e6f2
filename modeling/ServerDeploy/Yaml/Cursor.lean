import ServerDeploy.Json.Reader

/-! A place in a YAML text: the characters still to come, and line and column for the rules that
depend on them. -/

namespace ServerDeploy

namespace Yaml

structure Cursor where
  rest : List Char
  index : Nat
  line : Nat
  column : Nat
  deriving Repr, Inhabited

def isLineBreak (c : Char) : Bool :=
  c == '\n' || c == '\r' || c == '\u0085' || c == '\u2028' || c == '\u2029'

/-- Line breaks, blanks and the end of the text separate tokens. -/
def isSeparator : Option Char → Bool
  | none => true
  | some c => c == ' ' || c == '\t' || isLineBreak c

namespace Cursor

def start (cs : List Char) : Cursor := ⟨cs, 0, 0, 0⟩

def peek (p : Cursor) : Option Char := p.rest.head?

def peekAt (p : Cursor) (n : Nat) : Option Char := p.rest[n]?

def next (p : Cursor) : Cursor :=
  match p.rest with
  | [] => p
  | c :: rest =>
    if isLineBreak c && !(c == '\r' && rest.head? == some '\n') then
      ⟨rest, p.index + 1, p.line + 1, 0⟩
    else ⟨rest, p.index + 1, p.line, if c == '\ufeff' then p.column else p.column + 1⟩

def advance : Nat → Cursor → Cursor
  | 0, p => p
  | n + 1, p => advance n p.next

def skipWhile (f : Char → Bool) (p : Cursor) : Cursor :=
  p.advance (p.rest.takeWhile f).length

/-- The characters of a kind from here on, and the place after them. -/
def takeWhile (f : Char → Bool) (p : Cursor) : List Char × Cursor :=
  let cs := p.rest.takeWhile f
  (cs, p.advance cs.length)

def sees (p : Cursor) (s : String) : Bool := s.toList.isPrefixOf p.rest

/-- A line break as it counts in a scalar, and the place after it; nothing if there is none. -/
def lineBreak (p : Cursor) : List Char × Cursor :=
  match p.rest with
  | '\r' :: '\n' :: _ => (['\n'], p.next.next)
  | c :: _ =>
    if c == '\u2028' || c == '\u2029' then ([c], p.next)
    else if isLineBreak c then (['\n'], p.next)
    else ([], p)
  | [] => ([], p)

def atDocumentMark (p : Cursor) : Bool :=
  (p.sees "---" || p.sees "...") && isSeparator (p.peekAt 3)

end Cursor

end Yaml

end ServerDeploy
