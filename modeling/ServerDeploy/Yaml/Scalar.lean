import ServerDeploy.Yaml.Cursor

/-! The four written forms of a scalar: plain, single quoted, double quoted, and block. Each reader
gives the text the form stands for and the place after it. Loops are bounded by the length of the
text that is left. -/

namespace ServerDeploy

namespace Yaml

/-! ## Quoted scalars -/

def simpleEscape? (c : Char) : Option Char :=
  match c with
  | '0' => some '\x00'
  | 'a' => some '\x07'
  | 'b' => some '\x08'
  | 't' => some '\t'
  | '\t' => some '\t'
  | 'n' => some '\n'
  | 'v' => some '\x0b'
  | 'f' => some '\x0c'
  | 'r' => some '\r'
  | 'e' => some '\x1b'
  | ' ' => some ' '
  | '"' => some '"'
  | '\\' => some '\\'
  | '/' => some '/'
  | 'N' => some '\u0085'
  | '_' => some '\u00a0'
  | 'L' => some '\u2028'
  | 'P' => some '\u2029'
  | _ => none

/-- The number of hexadecimal digits after an escape letter. -/
def codeLength? (c : Char) : Option Nat :=
  match c with
  | 'x' => some 2
  | 'u' => some 4
  | 'U' => some 8
  | _ => none

/-- The number that hexadecimal digits write. -/
def hexNumber? (cs : List Char) : Option Nat :=
  cs.foldl (fun n? c => do pure (16 * (← n?) + (← Json.hexValue? c))) (some 0)

/-- The line breaks from here on, with the blanks before each of them left out. A document marker
may not stand inside a quoted scalar. -/
def quotedBreaks : Nat → Cursor → Option (List Char × Cursor)
  | 0, p => some ([], p)
  | fuel + 1, p =>
    if p.atDocumentMark then none
    else
      let p := p.skipWhile fun c => c == ' ' || c == '\t'
      match p.lineBreak with
      | ([], p) => some ([], p)
      | (b, p) => do
        let (bs, p) ← quotedBreaks fuel p
        pure (b ++ bs, p)

/-- Blanks and line breaks inside a quoted scalar: a single break counts as a space. -/
def quotedSpaces (p : Cursor) : Option (List Char × Cursor) :=
  let (blanks, p) := p.takeWhile fun c => c == ' ' || c == '\t'
  match p.peek with
  | none => none
  | some _ =>
    match p.lineBreak with
    | ([], p) => some (blanks, p)
    | (b, p) => do
      let (breaks, p) ← quotedBreaks (p.rest.length + 1) p
      let folded := if b != ['\n'] then b else if breaks.isEmpty then [' '] else []
      pure (folded ++ breaks, p)

/-- The escape after a backslash in a double quoted scalar. -/
def escape (p : Cursor) : Option (List Char × Cursor) := do
  let c ← p.peek
  match simpleEscape? c, codeLength? c with
  | some d, _ => pure ([d], p.next)
  | none, some n =>
    let p := p.next
    let digits := p.rest.take n
    if digits.length != n then none
    else
      let code ← hexNumber? digits
      pure ([Char.ofNat code], p.advance n)
  | none, none =>
    if isLineBreak c then
      let (_, p) := p.lineBreak
      quotedBreaks (p.rest.length + 1) p
    else none

def quotedBody (double : Bool) : Nat → Cursor → Option (List Char × Cursor)
  | 0, _ => none
  | fuel + 1, p =>
    match p.peek with
    | none => none
    | some c =>
      if c == ' ' || c == '\t' || isLineBreak c then do
        let (spaces, p) ← quotedSpaces p
        let (text, p) ← quotedBody double fuel p
        pure (spaces ++ text, p)
      else if double && c == '\\' then do
        let (cs, p) ← escape p.next
        let (text, p) ← quotedBody double fuel p
        pure (cs ++ text, p)
      else if double && c == '"' then some ([], p.next)
      else if !double && c == '\'' then
        if p.peekAt 1 == some '\'' then do
          let (text, p) ← quotedBody double fuel p.next.next
          pure ('\'' :: text, p)
        else some ([], p.next)
      else do
        let (text, p) ← quotedBody double fuel p.next
        pure (c :: text, p)

def quotedScalar (double : Bool) (p : Cursor) : Option (List Char × Cursor) :=
  quotedBody double (p.rest.length + 1) p.next

/-! ## Plain scalars -/

def endsPlain (flow : Bool) (cs : List Char) : Bool :=
  match cs with
  | [] => true
  | c :: rest =>
    isSeparator (some c) ||
    (c == ':' && (isSeparator rest.head? || (flow && (rest.head?.any (",[]\x7b\x7d".toList.contains ·))))) ||
    (flow && ",?[]\x7b\x7d".toList.contains c)

def plainWord (flow : Bool) : List Char → List Char
  | [] => []
  | c :: cs => if endsPlain flow (c :: cs) then [] else c :: plainWord flow cs

/-- The line breaks between the lines of a plain scalar; nothing at a document marker. -/
def plainBreaks : Nat → Cursor → Option (List Char × Cursor)
  | 0, p => some ([], p)
  | fuel + 1, p =>
    match p.peek with
    | some ' ' => plainBreaks fuel p.next
    | _ =>
      match p.lineBreak with
      | ([], p) => some ([], p)
      | (b, p) =>
        if p.atDocumentMark then none
        else do
          let (bs, p) ← plainBreaks fuel p
          pure (b ++ bs, p)

/-- What stands between two words of a plain scalar: its text, the place after it, and whether a line
break was crossed. No text means that the scalar ends. -/
def plainSpaces (p : Cursor) : List Char × Cursor × Bool :=
  let (blanks, p) := p.takeWhile (· == ' ')
  match p.lineBreak with
  | ([], p) => (blanks, p, false)
  | (b, p) =>
    if p.atDocumentMark then ([], p, true)
    else match plainBreaks (p.rest.length + 1) p with
      | none => ([], p, true)
      | some (breaks, p) =>
        let folded := if b != ['\n'] then b else if breaks.isEmpty then [' '] else []
        (folded ++ breaks, p, true)

/-- The rest of a plain scalar, with the spaces before its next word. Continuation lines must be
indented. The last component tells whether the scalar ended after a line break. -/
def plainBody (flow : Bool) (indent : Int) :
    Nat → List Char → Cursor → Bool → List Char × Cursor × Bool
  | 0, _, p, crossed => ([], p, crossed)
  | fuel + 1, spaces, p, crossed =>
    if p.peek == some '#' then ([], p, crossed)
    else
      let word := plainWord flow p.rest
      if word.isEmpty then ([], p, crossed)
      else
        let (between, q, newline) := plainSpaces (p.advance word.length)
        if between.isEmpty || q.peek == some '#' || (!flow && (q.column : Int) < indent) then
          (spaces ++ word, q, newline)
        else
          let (text, q, newline) := plainBody flow indent fuel between q newline
          (spaces ++ word ++ text, q, newline)

/-! ## Block scalars -/

/-- What happens to the line breaks at the end of a block scalar. -/
inductive Chomping where
  | strip
  | clip
  | keep
  deriving DecidableEq

def chomping? (c : Option Char) : Option Chomping :=
  match c with
  | some '+' => some .keep
  | some '-' => some .strip
  | _ => none

/-- An indentation indicator; zero is refused by the caller. -/
def increment? (c : Option Char) : Option Nat :=
  c.bind fun d => if d.isDigit then some (d.toNat - 48) else none

/-- Chomping and indentation indicators, in either order. -/
def blockHeader (p : Cursor) : Option (Chomping × Option Nat × Cursor) :=
  let (mode, inc, p) := match chomping? p.peek with
    | some mode =>
      match increment? p.next.peek with
      | some n => (mode, some n, p.next.next)
      | none => (mode, none, p.next)
    | none =>
      match increment? p.peek with
      | some n =>
        match chomping? p.next.peek with
        | some mode => (mode, some n, p.next.next)
        | none => (.clip, some n, p.next)
      | none => (.clip, none, p)
  if inc == some 0 then none
  else match p.peek with
    | none => some (mode, inc, p)
    | some c => if c == ' ' || isLineBreak c then some (mode, inc, p) else none

/-- The rest of a header line: blanks and a comment. -/
def headerEnd (p : Cursor) : Option Cursor :=
  let p := p.skipWhile (· == ' ')
  let p := if p.peek == some '#' then p.skipWhile fun c => !isLineBreak c else p
  match p.peek with
  | none => some p
  | some c => if isLineBreak c then some p.lineBreak.2 else none

/-- The line breaks before the first line of a block scalar, the deepest indentation among them and
of that line, and the place where the line starts. -/
def leadingBreaks : Nat → Nat → Cursor → List Char × Nat × Cursor
  | 0, deepest, p => ([], deepest, p)
  | fuel + 1, deepest, p =>
    match p.peek with
    | some ' ' => leadingBreaks fuel (max deepest p.next.column) p.next
    | _ =>
      match p.lineBreak with
      | ([], p) => ([], deepest, p)
      | (b, p) =>
        let (bs, deepest, p) := leadingBreaks fuel deepest p
        (b ++ bs, deepest, p)

def skipIndent : Nat → Nat → Cursor → Cursor
  | 0, _, p => p
  | fuel + 1, indent, p =>
    if p.column < indent && p.peek == some ' ' then skipIndent fuel indent p.next else p

/-- The empty lines from here on, and the place after the indentation of the next line. -/
def blockBreaks (indent : Nat) : Nat → Cursor → List Char × Cursor
  | 0, p => ([], p)
  | fuel + 1, p =>
    let p := skipIndent indent indent p
    match p.lineBreak with
    | ([], p) => ([], p)
    | (b, p) =>
      let (bs, p) := blockBreaks indent fuel p
      (b ++ bs, p)

/-- The lines of a block scalar, after the breaks before each. Gives the text, the last line break,
the empty lines after it and the place where the scalar ends. -/
def blockLines (folded : Bool) (indent : Nat) :
    Nat → List Char → Cursor → List Char × List Char × List Char × Cursor
  | 0, breaks, p => ([], [], breaks, p)
  | fuel + 1, breaks, p =>
    if p.column != indent || p.peek.isNone then ([], [], breaks, p)
    else
      let dark (p : Cursor) := p.peek != some ' ' && p.peek != some '\t'
      let wasDark := dark p
      let (line, p) := p.takeWhile fun c => !isLineBreak c
      let (b, p) := p.lineBreak
      let (nextBreaks, p) := blockBreaks indent (p.rest.length + 1) p
      if p.column == indent && p.peek.isSome then
        let joint :=
          if folded && b == ['\n'] && wasDark && dark p then
            if nextBreaks.isEmpty then [' '] else []
          else b
        let (text, last, final, p) := blockLines folded indent fuel nextBreaks p
        (breaks ++ line ++ joint ++ text, last, final, p)
      else (breaks ++ line, b, nextBreaks, p)

def blockScalar (folded : Bool) (blockIndent : Int) (p : Cursor) : Option (List Char × Cursor) := do
  let (mode, inc, p) ← blockHeader p.next
  let p ← headerEnd p
  let least := (max (blockIndent + 1) 1).toNat
  let (breaks, indent, p) := match inc with
    | some n =>
      let indent := least + n - 1
      let (breaks, p) := blockBreaks indent (p.rest.length + 1) p
      (breaks, indent, p)
    | none =>
      let (breaks, deepest, p) := leadingBreaks (p.rest.length + 1) 0 p
      (breaks, max least deepest, p)
  let (text, last, final, p) := blockLines folded indent (p.rest.length + 1) breaks p
  pure (text ++ (if mode == .strip then [] else last) ++ (if mode == .keep then final else []), p)

end Yaml

end ServerDeploy
