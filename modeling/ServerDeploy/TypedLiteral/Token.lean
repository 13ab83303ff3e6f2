import ServerDeploy.TypedLiteral.Problem
import ServerDeploy.Json.Reader
import ServerDeploy.Text.Base64

/-! The tokens of typed literals: words, numbers, quoted strings, bytes and marks. Each reader takes
a text and gives what it read with the text after it. -/

namespace ServerDeploy

namespace TypedLiteral

def isWordStart (c : Char) : Bool := c.isAlpha || c == '_'

def isWordPart (c : Char) : Bool := c.isAlphanum || c == '_' || c == '.' || c == '-'

/-- A bare word: a letter or low line, then letters, digits, low lines, points and hyphens. -/
def word? : List Char → Option (List Char × List Char)
  | c :: cs =>
    if isWordStart c then some (c :: cs.takeWhile isWordPart, cs.dropWhile isWordPart) else none
  | [] => none

/-- Reads a given mark, after white space. -/
def mark (c : Char) (cs : List Char) : Except Failure (Unit × List Char) :=
  match skipBlanks cs with
  | d :: rest => if d = c then .ok ((), rest) else .error (.malformed (.mark c) (d :: rest))
  | [] => .error (.malformed (.mark c) [])

def unescape (c : Char) : Char :=
  if c = 'n' then '\n' else if c = 't' then '\t' else if c = 'r' then '\r' else c

/-- The rest of a string after its opening quote. -/
def stringBody : List Char → Except Failure (List Char × List Char)
  | [] => .error (.malformed .unterminatedString [])
  | c :: cs =>
    if c = '"' then .ok ([], cs)
    else if c = '\\' then
      match cs with
      | [] => .error (.malformed .unterminatedString [])
      | e :: rest => do
        let (text, rest) ← stringBody rest
        pure (unescape e :: text, rest)
    else do
      let (text, rest) ← stringBody cs
      pure (c :: text, rest)

/-- A quoted string, after white space. -/
def string (cs : List Char) : Except Failure (String × List Char) := do
  let (_, rest) ← mark '"' cs
  let (text, rest) ← stringBody rest
  pure (String.ofList text, rest)

/-- A fraction: a point and at least one digit. -/
def fraction? : List Char → Option (List Char × List Char)
  | '.' :: cs =>
    match cs.takeWhile isDecimalDigit with
    | [] => none
    | digits => some (digits, cs.dropWhile isDecimalDigit)
  | _ => none

/-- An exponent: the letter, perhaps a sign, and at least one digit. -/
def exponent? : List Char → Option (Int × List Char)
  | c :: cs =>
    if c = 'e' ∨ c = 'E' then
      let (negative, body) := readSign cs
      match body.takeWhile isDecimalDigit with
      | [] => none
      | digits =>
        let n : Int := digitsValue digits
        some (if negative then -n else n, body.dropWhile isDecimalDigit)
    else none
  | [] => none

/-- A long suffix is allowed after any number and does not count. -/
def dropLongSuffix : List Char → List Char
  | 'L' :: rest => rest
  | rest => rest

/-- A number, after white space. With a fraction or an exponent it is a double, else an integer. -/
def number (cs : List Char) : Except Failure (Json × List Char) :=
  let start := skipBlanks cs
  let (negative, body) := match start with
    | '-' :: rest => (true, rest)
    | rest => (false, rest)
  let whole := body.takeWhile isDecimalDigit
  let rest := body.dropWhile isDecimalDigit
  if whole.isEmpty then .error (.malformed .number start)
  else
    let (fraction, rest) := (fraction? rest).getD ([], rest)
    let (exponent, rest) := match exponent? rest with
      | some (e, rest) => (some e, rest)
      | none => (none, rest)
    let rest := dropLongSuffix rest
    if fraction.isEmpty && exponent.isNone then
      if maxIntegerDigits < whole.length then .error (.oversize whole.length)
      else
        let n : Int := digitsValue whole
        .ok (.int (if negative then -n else n), rest)
    else
      .ok (.num (.ofDecimal negative (digitsValue (whole ++ fraction))
        (exponent.getD 0 - fraction.length)), rest)

/-- A key of an object: a quoted string or a bare word, after white space. -/
def key (cs : List Char) : Except Failure (String × List Char) :=
  match skipBlanks cs with
  | '"' :: rest => string ('"' :: rest)
  | rest =>
    match word? rest with
    | some (w, rest) => .ok (String.ofList w, rest)
    | none => .error (.malformed .key rest)

/-- The arrow or colon between a key and its value, after white space. -/
def arrow (cs : List Char) : Except Failure (Unit × List Char) :=
  match skipBlanks cs with
  | '=' :: '>' :: rest => .ok ((), rest)
  | ':' :: rest => .ok ((), rest)
  | rest => .error (.malformed .arrow rest)

/-- A byte: `0x` and one or two hexadecimal digits. -/
def hexByte? : List Char → Option (UInt8 × List Char)
  | '0' :: 'x' :: c :: rest => do
    let high ← Json.hexValue? c
    match rest with
    | d :: more =>
      match Json.hexValue? d with
      | some low => pure (UInt8.ofNat (16 * high + low), more)
      | none => pure (UInt8.ofNat high, rest)
    | [] => pure (UInt8.ofNat high, rest)
  | _ => none

/-- The bytes up to a closing brace; commas between and after them may be left out. The first
argument bounds the number of bytes. -/
def byteItems : Nat → List Char → Except Failure (List UInt8 × List Char)
  | 0, cs => .error (.malformed .hexByte (skipBlanks cs))
  | bound + 1, cs =>
    match skipBlanks cs with
    | '\x7d' :: rest => .ok ([], rest)
    | start =>
      match hexByte? start with
      | none => .error (.malformed .hexByte start)
      | some (b, rest) => do
        let rest := match skipBlanks rest with
          | ',' :: after => after
          | rest => rest
        let (bs, rest) ← byteItems bound rest
        pure (b :: bs, rest)

/-- Bytes in braces, as the object that carries their Base64 text. -/
def bytes (cs : List Char) : Except Failure (Json × List Char) := do
  let (_, rest) ← mark '\x7b' cs
  let (bs, rest) ← byteItems (rest.length + 1) rest
  pure (.obj [("BYTES_VALUE", .str (String.ofList (Base64.encode bs)))], rest)

/-- The number after `big`, whose kind must be named. -/
def bigNumber (cs : List Char) : Except Failure (Json × List Char) :=
  match word? (skipBlanks cs) with
  | none => .error (.malformed .numberKind (skipBlanks cs))
  | some (w, rest) =>
    let kind := String.ofList w
    if kind = "integer" ∨ kind = "decimal" then number rest
    else .error (.malformed (.unknownNumberKind kind) rest)

def keyword (cs : List Char) : Except Failure (Json × List Char) :=
  match word? (skipBlanks cs) with
  | none => .error (.malformed .character (skipBlanks cs))
  | some (w, rest) =>
    let name := String.ofList w
    if name = "true" then .ok (.bool true, rest)
    else if name = "false" then .ok (.bool false, rest)
    else if name = "undefined" then .ok (.null, rest)
    else if name = "expression" then do
      let (s, rest) ← string rest
      pure (.obj [("EXPRESSION_VALUE", .str s)], rest)
    else if name = "bytes" then bytes rest
    else if name = "big" then bigNumber rest
    else .error (.malformed (.keyword name) rest)

end TypedLiteral

end ServerDeploy
