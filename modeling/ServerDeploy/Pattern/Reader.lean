import ServerDeploy.Json.Reader
import ServerDeploy.Pattern.Basic

/-! Reading name patterns: literals, the point, sets in brackets, escapes, groups, alternatives,
repetitions and anchors. A refusal says what is wrong and where. -/

namespace ServerDeploy

namespace Pattern

/-- What is wrong with a pattern, and how much of it was left where it was noticed. -/
structure Refusal where
  message : String
  left : Nat
  deriving DecidableEq, Repr

abbrev Step (α : Type) := StateT (List Char) (Except Refusal) α

namespace Step

/-- Refuses with the place that lies `back` characters before the current one. -/
def refuse {α : Type} (message : String) (back : Nat) : Step α := do
  let cs ← get
  throw ⟨message, cs.length + back⟩

/-- Moves on. A backslash may not be the last character. -/
def setRest (cs : List Char) : Step Unit :=
  if cs == ['\\'] then throw ⟨"bad escape (end of pattern)", 1⟩ else set cs

/-- The next token without taking it: a character, or a backslash with the character after it. -/
def peek : Step (Option (List Char)) := do
  match ← get with
  | [] => pure none
  | '\\' :: c :: _ => pure (some ['\\', c])
  | c :: _ => pure (some [c])

def take : Step (Option (List Char)) := do
  let t ← peek
  let cs ← get
  setRest (cs.drop (t.getD []).length)
  pure t

/-- Takes a given character if it comes next. -/
def accept (c : Char) : Step Bool := do
  match ← peek with
  | some [d] =>
    if d == c then do
      let _ ← take
      pure true
    else pure false
  | _ => pure false

def takeWhile (f : Char → Bool) : Nat → Step (List Char)
  | 0 => pure []
  | n + 1 => do
    match ← peek with
    | some [c] =>
      if f c then do
        let _ ← take
        let cs ← takeWhile f n
        pure (c :: cs)
      else pure []
    | _ => pure []

end Step

open Step

def isOctal (c : Char) : Bool := '0' ≤ c && c ≤ '7'

def isHex (c : Char) : Bool := (Json.hexValue? c).isSome

def numberIn (base : Nat) (cs : List Char) : Nat :=
  cs.foldl (fun n c => base * n + (Json.hexValue? c).getD 0) 0

def letterEscape? (c : Char) : Option Char :=
  match c with
  | 'a' => some '\x07'
  | 'f' => some '\x0c'
  | 'n' => some '\n'
  | 'r' => some '\r'
  | 't' => some '\t'
  | 'v' => some '\x0b'
  | '\\' => some '\\'
  | _ => none

/-- The class that a letter escape stands for. -/
def kindEscape? (c : Char) : Option SetItem :=
  match c with
  | 'd' => some (.kind .digit false)
  | 'D' => some (.kind .digit true)
  | 'w' => some (.kind .word false)
  | 'W' => some (.kind .word true)
  | 's' => some (.kind .blank false)
  | 'S' => some (.kind .blank true)
  | _ => none

def anchorEscape? (c : Char) : Option Anchor :=
  match c with
  | 'A' => some .start
  | 'Z' => some .textEnd
  | 'b' => some (.wordEdge false)
  | 'B' => some (.wordEdge true)
  | _ => none

/-- A character given by hexadecimal digits, exactly `n` of them. -/
def hexEscape (letter : Char) (n : Nat) : Step Nat := do
  let digits ← takeWhile isHex n
  if digits.length != n then
    refuse ("incomplete escape \\" ++ String.ofList (letter :: digits)) (digits.length + 2)
  else
    let code := numberIn 16 digits
    if 0x10ffff < code then
      refuse ("bad escape \\" ++ String.ofList (letter :: digits)) (digits.length + 2)
    else pure code

def octalEscape (digits : List Char) : Step Nat := do
  let code := numberIn 8 digits
  if 0o377 < code then
    refuse ("octal escape value \\" ++ String.ofList digits ++ " outside of range 0-0o377")
      (digits.length + 1)
  else pure code

def codeEscape (c : Char) : Step Nat := do
  if c == 'x' then hexEscape c 2
  else if c == 'u' then hexEscape c 4
  else if c == 'U' then hexEscape c 8
  else if c.isAlpha then refuse ("bad escape \\" ++ String.singleton c) 2
  else pure c.toNat

/-- An escape outside sets. `groups` is the number of groups begun so far. -/
def escape (groups : Nat) (c : Char) : Step Pattern := do
  let literal (code : Nat) : Pattern := .char (.set false [.range code code])
  match kindEscape? c, anchorEscape? c, letterEscape? c with
  | some item, _, _ => pure (.char (.set false [item]))
  | _, some a, _ => pure (.anchor a)
  | _, _, some d => pure (literal d.toNat)
  | none, none, none =>
    if c == '0' then do
      let more ← takeWhile isOctal 2
      literal <$> octalEscape (c :: more)
    else if c.isDigit then do
      let second ← takeWhile Char.isDigit 1
      let third ← if isOctal c && !second.isEmpty && second.all isOctal then takeWhile isOctal 1
        else pure []
      if !third.isEmpty then literal <$> octalEscape (c :: second ++ third)
      else
        let number := numberIn 10 (c :: second)
        if number ≤ groups then pure .never
        else refuse ("invalid group reference " ++ toString number) (second.length + 1)
    else literal <$> codeEscape c

def setEscape (c : Char) : Step SetItem := do
  let single (code : Nat) : SetItem := .range code code
  match kindEscape? c, letterEscape? c with
  | some item, _ => pure item
  | none, some d => pure (single d.toNat)
  | none, none =>
    if c == 'b' then pure (single 8)
    else if isOctal c then do
      let more ← takeWhile isOctal 2
      single <$> octalEscape (c :: more)
    else if c.isDigit then refuse ("bad escape \\" ++ String.singleton c) 2
    else single <$> codeEscape c

def setItem (token : List Char) : Step SetItem :=
  match token with
  | ['\\', c] => setEscape c
  | [c] => pure (.range c.toNat c.toNat)
  | _ => refuse "unterminated character set" 0

/-- The items of a set up to its closing bracket. The bracket at `here` characters from the end of
the pattern opened it. -/
def setItems (here : Nat) : Nat → List SetItem → Step (List SetItem)
  | 0, _ => refuse "unterminated character set" 0
  | fuel + 1, done => do
    let unterminated : Step (List SetItem) := throw ⟨"unterminated character set", here⟩
    match ← take with
    | none => unterminated
    | some token =>
      if token == [']'] && !done.isEmpty then pure done.reverse
      else do
        let first ← setItem token
        if ← accept '-' then
          match ← take with
          | none => unterminated
          | some [']'] => pure (.range 45 45 :: first :: done).reverse
          | some token' => do
            let second ← setItem token'
            let bad : Step (List SetItem) :=
              refuse ("bad character range " ++ String.ofList token ++ "-" ++ String.ofList token')
                (token.length + 1 + token'.length)
            match first, second with
            | .range low _, .range high _ =>
              if high < low then bad else setItems here fuel (.range low high :: done)
            | _, _ => bad
        else setItems here fuel (first :: done)

def charSet (here : Nat) : Step Pattern := do
  let negated ← accept '^'
  let items ← setItems here ((← get).length + 1) []
  pure (.char (.set negated items))

/-- The largest number of repetitions that can be asked for, and one more. -/
def repeatLimit : Nat := 4294967295

/-- The bounds of a repetition, or nothing if the brace stands for itself. -/
def bounds : Step (Option (Nat × Option Nat)) := do
  let start ← get
  let here := start.length
  if start.head? == some '\x7d' then pure none
  else do
    let low ← takeWhile Char.isDigit here
    let comma ← accept ','
    let high ← if comma then takeWhile Char.isDigit here else pure low
    if ← accept '\x7d' then
      let least := numberIn 10 low
      let most := if high.isEmpty then none else some (numberIn 10 high)
      if most.any fun n => n < least then throw ⟨"min repeat greater than max repeat", here⟩
      else pure (some (least, most))
    else do
      set start
      pure none

/-- Whether a repetition mark may follow the item. -/
def repeatable : Option Pattern → Except String Pattern
  | none => .error "nothing to repeat"
  | some (.anchor _) => .error "nothing to repeat"
  | some (.repeated _ _ _) => .error "multiple repeat"
  | some p => .ok p

def sequence : List Pattern → Pattern
  | [] => .empty
  | [p] => p
  | p :: ps => .seq p (sequence ps)

/-- Repeats the last item, given in front of those before it. The mark stood at `here` characters
from the end of the pattern. -/
def repeatLast (here : Nat) (least : Nat) (most : Option Nat) (items : List Pattern) :
    Step (List Pattern) := do
  match repeatable items.head? with
  | .error message => throw ⟨message, here⟩
  | .ok p => do
    if !(← accept '?') then
      let _ ← accept '+'
    pure (.repeated least most p :: items.drop 1)

/-- What follows the opening parenthesis of a group; tells whether the group has a number. -/
def opening : Step Bool := do
  if ← accept '?' then
    match ← take with
    | none => refuse "unexpected end of pattern" 0
    | some [':'] => pure false
    | some ['P'] =>
      if ← accept '<' then do
        let name ← takeWhile (· != '>') (← get).length
        if ← accept '>' then
          if name.isEmpty then refuse "missing group name" 1 else pure true
        else if name.isEmpty then refuse "missing group name" 0
        else refuse "missing >, unterminated name" name.length
      else
        match ← take with
        | none => refuse "unexpected end of pattern" 0
        | some token =>
          refuse ("unknown extension ?P" ++ String.ofList token) (token.length + 2)
    | some token => refuse ("unknown extension ?" ++ String.ofList token) (token.length + 1)
  else pure true

inductive Mark where
  | escaped (c : Char)
  | set
  | group
  /-- A brace, which begins bounds or stands for itself. -/
  | brace
  | single (p : Pattern)
  | repetition (least : Nat) (most : Option Nat)

/-- The mark of a character outside sets that no backslash stands before. -/
def markOf (c : Char) : Mark :=
  if c == '[' then .set
  else if c == '(' then .group
  else if c == '\x7b' then .brace
  else if c == '.' then .single (.char .any)
  else if c == '^' then .single (.anchor .start)
  else if c == '$' then .single (.anchor .lineEnd)
  else if c == '?' then .repetition 0 (some 1)
  else if c == '*' then .repetition 0 none
  else if c == '+' then .repetition 1 none
  else .single (.char (.one c))

/-- Takes the next token of a sequence. Nothing is taken where a bar, a closing parenthesis or the end
of the pattern ends the sequence. -/
def nextMark : Step (Option Mark) := do
  match ← peek with
  | some ['\\', c] => do
    let _ ← take
    pure (some (.escaped c))
  | some [c] =>
    if c == '|' || c == ')' then pure none
    else do
      let _ ← take
      pure (some (markOf c))
  | _ => pure none

mutual

/-- Alternatives. The groups begun so far are counted along. -/
def alternatives : Nat → Nat → Step (Pattern × Nat)
  | 0, groups => pure (.empty, groups)
  | fuel + 1, groups => do
    let (p, groups) ← items fuel groups []
    if ← accept '|' then do
      let (q, groups) ← alternatives fuel groups
      pure (.alt p q, groups)
    else pure (p, groups)

/-- The items of a sequence, up to a bar, a closing parenthesis or the end. -/
def items : Nat → Nat → List Pattern → Step (Pattern × Nat)
  | 0, groups, done => pure (sequence done.reverse, groups)
  | fuel + 1, groups, done => do
    let here := (← get).length
    match ← nextMark with
    | none => pure (sequence done.reverse, groups)
    | some (.escaped c) => do
      let p ← escape groups c
      items fuel groups (p :: done)
    | some .set => do
      let p ← charSet here
      items fuel groups (p :: done)
    | some .group => do
      let (p, groups) ← groupBody here fuel groups
      items fuel groups (p :: done)
    | some .brace => do
      match ← bounds with
      | none => items fuel groups (.char (.one '\x7b') :: done)
      | some (least, most) => do
        let done ← repeatLast here least most done
        items fuel groups done
    | some (.single p) => items fuel groups (p :: done)
    | some (.repetition least most) => do
      let done ← repeatLast here least most done
      items fuel groups done

def groupBody (here : Nat) : Nat → Nat → Step (Pattern × Nat)
  | 0, groups => pure (.empty, groups)
  | fuel + 1, groups => do
    let captures ← opening
    let (p, groups) ← alternatives fuel (if captures then groups + 1 else groups)
    if ← accept ')' then pure (.group p, groups)
    else throw ⟨"missing ), unterminated subpattern", here⟩

end

/-- A whole pattern: nothing may be left after it. -/
def whole (cs : List Char) : Step Pattern := do
  setRest cs
  let (p, _) ← alternatives (2 * cs.length + 2) 0
  if (← get).isEmpty then pure p else refuse "unbalanced parenthesis" 0

/-- The place of a refusal in words; with line and column if the pattern has more than one line. -/
def placeText (cs : List Char) (place : Nat) : String :=
  let before := cs.take place
  let line := (before.filter (· == '\n')).length + 1
  let column := (before.reverse.takeWhile (· != '\n')).length + 1
  " at position " ++ toString place ++
    (if cs.contains '\n' then
      " (line " ++ toString line ++ ", column " ++ toString column ++ ")"
    else "")

/-- Reads a pattern; the error says what is wrong and where. -/
def parse (s : String) : Except String Pattern :=
  let cs := s.toList
  match (whole cs).run cs with
  | .ok (p, _) => .ok p
  | .error refusal => .error (refusal.message ++ placeText cs (cs.length - refusal.left))

end Pattern

end ServerDeploy
