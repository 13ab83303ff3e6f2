import ServerDeploy.Yaml.Scalar

/-! The tokens of a YAML text. Where a mapping key may begin, a slot is kept in the list of tokens; it
is filled when the colon after the key is met, and dropped if none is. -/

namespace ServerDeploy

namespace Yaml

inductive Token where
  | streamEnd
  | documentStart
  | documentEnd
  | directive (name : List Char) (value : List Char)
  | blockSequenceStart
  | blockMappingStart
  | blockEnd
  | flowSequenceStart
  | flowSequenceEnd
  | flowMappingStart
  | flowMappingEnd
  | blockEntry
  | flowEntry
  | key
  | value
  | alias (name : List Char)
  | anchor (name : List Char)
  | tag (handle : Option (List Char)) (suffix : List Char)
  | scalar (text : List Char) (plain : Bool)
  /-- A place where a key may begin; when filled, perhaps with the start of a mapping before it. -/
  | slot (filled startsMapping : Bool)
  deriving DecidableEq, Repr, Inhabited

def fillSlots : List Token → List Token
  | [] => []
  | .slot filled startsMapping :: rest =>
    (if startsMapping then [Token.blockMappingStart] else []) ++ (if filled then [Token.key] else []) ++
      fillSlots rest
  | t :: rest => t :: fillSlots rest

/-- A key that may have begun: its slot, whether a colon must follow, and where it stands. -/
structure Candidate where
  level : Nat
  slot : Nat
  required : Bool
  index : Nat
  line : Nat
  column : Nat
  deriving Repr

structure Lexer where
  place : Cursor
  tokens : Array Token
  indent : Int
  indents : List Int
  flow : Nat
  keyAllowed : Bool
  candidates : List Candidate

namespace Lexer

def start (cs : List Char) : Lexer := ⟨.start cs, #[], -1, [], 0, true, []⟩

def push (s : Lexer) (t : Token) : Lexer := { s with tokens := s.tokens.push t }

/-- Moves on and adds the token for what was passed. -/
def take (s : Lexer) (n : Nat) (t : Token) : Lexer :=
  { s.push t with place := s.place.advance n }

/-- Skips blanks, comments and line breaks. After a line break in a block a key may begin. -/
def skipSpace : Nat → Lexer → Lexer
  | 0, s => s
  | fuel + 1, s =>
    let p := s.place.skipWhile (· == ' ')
    let p := if p.peek == some '#' then p.skipWhile fun c => !isLineBreak c else p
    match p.lineBreak with
    | ([], p) => { s with place := p }
    | (_, p) =>
      skipSpace fuel { s with place := p, keyAllowed := s.keyAllowed || s.flow == 0 }

/-- Drops the candidates that can no longer be keys: those on an earlier line or too far back. -/
def dropStale (s : Lexer) : Option Lexer :=
  let stale (k : Candidate) := k.line != s.place.line || 1024 < s.place.index - k.index
  if s.candidates.any fun k => stale k && k.required then none
  else some { s with candidates := s.candidates.filter fun k => !stale k }

/-- Closes the blocks that are indented more than a column. -/
def unwind (column : Int) : List Int → Lexer → Lexer
  | [], s => s
  | outer :: rest, s =>
    if s.flow == 0 && column < s.indent then
      unwind column rest { s.push .blockEnd with indent := outer, indents := rest }
    else s

def unwindTo (s : Lexer) (column : Int) : Lexer := unwind column s.indents s

def openBlock? (s : Lexer) (column : Nat) : Option Lexer :=
  if s.indent < column then
    some { s with indent := column, indents := s.indent :: s.indents }
  else none

def openBlock (s : Lexer) (t : Token) : Lexer :=
  match s.openBlock? s.place.column with
  | some s => s.push t
  | none => s

/-- Forgets the candidate of the current level; one that had to be a key is an error. -/
def forgetCandidate (s : Lexer) : Option Lexer :=
  if s.candidates.any fun k => k.level == s.flow && k.required then none
  else some { s with candidates := s.candidates.filter fun k => k.level != s.flow }

/-- Notes that a key may begin here, if that is allowed. -/
def noteCandidate (s : Lexer) : Option Lexer :=
  if s.keyAllowed then do
    let s ← s.forgetCandidate
    let required := s.flow == 0 && s.indent == s.place.column
    let k : Candidate :=
      ⟨s.flow, s.tokens.size, required, s.place.index, s.place.line, s.place.column⟩
    pure { s.push (.slot false false) with candidates := k :: s.candidates }
  else some s

/-- A flow collection begins. -/
def flowStart (s : Lexer) (t : Token) : Option Lexer := do
  let s ← s.noteCandidate
  pure { s.take 1 t with flow := s.flow + 1, keyAllowed := true }

/-- A flow collection ends. -/
def flowEnd (s : Lexer) (t : Token) : Option Lexer := do
  let s ← s.forgetCandidate
  if s.flow == 0 then none
  else pure { s.take 1 t with flow := s.flow - 1, keyAllowed := false }

def flowEntry (s : Lexer) : Option Lexer := do
  let s ← { s with keyAllowed := true }.forgetCandidate
  pure (s.take 1 .flowEntry)

def blockEntry (s : Lexer) : Option Lexer := do
  if s.flow == 0 && !s.keyAllowed then none
  else
    let s := if s.flow == 0 then s.openBlock .blockSequenceStart else s
    let s ← { s with keyAllowed := true }.forgetCandidate
    pure (s.take 1 .blockEntry)

def explicitKey (s : Lexer) : Option Lexer := do
  if s.flow == 0 && !s.keyAllowed then none
  else
    let s := if s.flow == 0 then s.openBlock .blockMappingStart else s
    let s ← { s with keyAllowed := s.flow == 0 }.forgetCandidate
    pure (s.take 1 .key)

/-- The colon before a value. A candidate on this level becomes a key. -/
def valueMark (s : Lexer) : Option Lexer := do
  match s.candidates.find? fun k => k.level == s.flow with
  | some k =>
    let s := { s with candidates := s.candidates.filter fun k => k.level != s.flow }
    let (s, starts) := if s.flow == 0 then
        match s.openBlock? k.column with
        | some s => (s, true)
        | none => (s, false)
      else (s, false)
    pure ({ s with
      tokens := s.tokens.setIfInBounds k.slot (.slot true starts), keyAllowed := false }.take 1 .value)
  | none =>
    if s.flow == 0 && !s.keyAllowed then none
    else
      let s := if s.flow == 0 then s.openBlock .blockMappingStart else s
      let s ← { s with keyAllowed := s.flow == 0 }.forgetCandidate
      pure (s.take 1 .value)

def isNameChar (c : Char) : Bool := c.isAlphanum || c == '-' || c == '_'

/-- The name of an anchor or alias, which must end at a separator or an indicator. -/
def anchorName (p : Cursor) : Option (List Char × Cursor) :=
  let (name, p) := p.takeWhile isNameChar
  if name.isEmpty then none
  else if isSeparator p.peek || (p.peek.any ("?:,]\x7d%@`".toList.contains ·)) then some (name, p)
  else none

def anchorMark (s : Lexer) (make : List Char → Token) : Option Lexer := do
  let s ← s.noteCandidate
  let (name, p) ← anchorName s.place.next
  pure { s.push (make name) with place := p, keyAllowed := false }

def isUriChar (c : Char) : Bool :=
  c.isAlphanum || "-;/?:@&=+$,_.!~*'()[]".toList.contains c

/-- A tag: verbatim in angle brackets, alone, or a handle and a suffix. -/
def tagText (p : Cursor) : Option (Option (List Char) × List Char × Cursor) :=
  match p.peekAt 1 with
  | some '<' =>
    let (suffix, p) := (p.advance 2).takeWhile isUriChar
    if suffix.isEmpty || p.peek != some '>' then none else some (none, suffix, p.next)
  | c =>
    if isSeparator c then some (none, ['!'], p.next)
    else
      let word := p.next.rest.takeWhile fun c => c != ' ' && !isLineBreak c
      if word.contains '!' then
        let (name, q) := p.next.takeWhile isNameChar
        if q.peek != some '!' then none
        else
          let (suffix, q) := q.next.takeWhile isUriChar
          if suffix.isEmpty then none else some (some ('!' :: name ++ ['!']), suffix, q)
      else
        let (suffix, q) := p.next.takeWhile isUriChar
        if suffix.isEmpty then none else some (some ['!'], suffix, q)

def tagMark (s : Lexer) : Option Lexer := do
  let s ← s.noteCandidate
  let (handle, suffix, p) ← tagText s.place
  let ends := match p.peek with
    | none => true
    | some c => c == ' ' || isLineBreak c
  if ends then pure { s.push (.tag handle suffix) with place := p, keyAllowed := false } else none

def blockText (s : Lexer) (folded : Bool) : Option Lexer := do
  let s ← { s with keyAllowed := true }.forgetCandidate
  let (text, p) ← blockScalar folded s.indent s.place
  pure { s.push (.scalar text false) with place := p }

def quotedText (s : Lexer) (double : Bool) : Option Lexer := do
  let s ← s.noteCandidate
  let (text, p) ← quotedScalar double s.place
  pure { s.push (.scalar text false) with place := p, keyAllowed := false }

def plainText (s : Lexer) : Option Lexer := do
  let s ← s.noteCandidate
  let (text, p, crossed) :=
    plainBody (s.flow != 0) (s.indent + 1) (s.place.rest.length + 1) [] s.place false
  pure { s.push (.scalar text true) with place := p, keyAllowed := crossed }

def directive (s : Lexer) : Option Lexer := do
  let s ← (s.unwindTo (-1)).forgetCandidate
  let (name, p) := s.place.next.takeWhile isNameChar
  if name.isEmpty then none
  else
    let (line, p) := p.takeWhile fun c => !isLineBreak c && c != '#'
    let p := p.skipWhile fun c => !isLineBreak c
    pure { s.push (.directive name (trimBlanks line)) with place := p.lineBreak.2, keyAllowed := false }

def documentMark (s : Lexer) (t : Token) : Option Lexer := do
  let s ← (s.unwindTo (-1)).forgetCandidate
  pure { s.take 3 t with keyAllowed := false }

/-- Whether a plain scalar may begin with the first of these characters. -/
def startsPlain (flow : Bool) (cs : List Char) : Bool :=
  match cs with
  | [] => false
  | c :: rest =>
    !(isSeparator (some c) || "-?:,[]\x7b\x7d#&*!|>'\"%@`".toList.contains c) ||
    (!isSeparator rest.head? && (c == '-' || (!flow && (c == '?' || c == ':'))))

def nextToken (s : Lexer) (c : Char) : Option Lexer :=
  let p := s.place
  let flow := s.flow != 0
  let spaced := isSeparator (p.peekAt 1)
  if p.column == 0 && c == '%' then s.directive
  else if p.column == 0 && p.sees "---" && isSeparator (p.peekAt 3) then s.documentMark .documentStart
  else if p.column == 0 && p.sees "..." && isSeparator (p.peekAt 3) then s.documentMark .documentEnd
  else if c == '[' then s.flowStart .flowSequenceStart
  else if c == '\x7b' then s.flowStart .flowMappingStart
  else if c == ']' then s.flowEnd .flowSequenceEnd
  else if c == '\x7d' then s.flowEnd .flowMappingEnd
  else if c == ',' then s.flowEntry
  else if c == '-' && spaced then s.blockEntry
  else if c == '?' && (flow || spaced) then s.explicitKey
  else if c == ':' && (flow || spaced) then s.valueMark
  else if c == '*' then s.anchorMark .alias
  else if c == '&' then s.anchorMark .anchor
  else if c == '!' then s.tagMark
  else if c == '|' && !flow then s.blockText false
  else if c == '>' && !flow then s.blockText true
  else if c == '\'' then s.quotedText false
  else if c == '"' then s.quotedText true
  else if startsPlain flow p.rest then s.plainText
  else none

def run : Nat → Lexer → Option Lexer
  | 0, _ => none
  | fuel + 1, s => do
    let s := s.skipSpace (s.place.rest.length + 1)
    let s ← s.dropStale
    let s := s.unwindTo s.place.column
    match s.place.peek with
    | none =>
      let s ← (s.unwindTo (-1)).forgetCandidate
      pure (s.push .streamEnd)
    | some c => do
      let s ← s.nextToken c
      run fuel s

end Lexer

/-- Characters that may stand in a YAML text. -/
def isReadable (c : Char) : Bool :=
  let n := c.toNat
  c == '\t' || c == '\n' || c == '\r' || (0x20 ≤ n && n ≤ 0x7e) || n == 0x85 ||
    (0xa0 ≤ n && n ≤ 0xfffd) || 0x10000 ≤ n

/-- The tokens of a text, or nothing if it is no YAML. A byte order mark at the start is skipped. -/
def tokens? (cs : List Char) : Option (List Token) :=
  if !cs.all isReadable then none
  else
    let cs := match cs with
      | '\ufeff' :: rest => rest
      | cs => cs
    (Lexer.run (cs.length + 2) (.start cs)).map fun s => fillSlots s.tokens.toList

end Yaml

end ServerDeploy
