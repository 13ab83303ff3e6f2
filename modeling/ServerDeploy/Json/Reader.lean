import ServerDeploy.Json.Basic
import ServerDeploy.Decimal.Reader

/-! Reading JSON text. Strings may not hold control characters, a repeated member name keeps its
first place and takes the last value, and the names `NaN`, `Infinity` and `-Infinity` are numbers. -/

namespace ServerDeploy

namespace Json

def isJsonBlank (c : Char) : Bool := c == ' ' || c == '\n' || c == '\t' || c == '\r'

def skipJsonBlanks : List Char → List Char := List.dropWhile isJsonBlank

def hexValue? (c : Char) : Option Nat :=
  if c.isDigit then some (c.toNat - 48)
  else if 'a' ≤ c && c ≤ 'f' then some (c.toNat - 87)
  else if 'A' ≤ c && c ≤ 'F' then some (c.toNat - 55)
  else none

/-- The number written by four hexadecimal digits. -/
def readUnit? : List Char → Option (Nat × List Char)
  | a :: b :: c :: d :: rest => do
    let a ← hexValue? a
    let b ← hexValue? b
    let c ← hexValue? c
    let d ← hexValue? d
    pure (((a * 16 + b) * 16 + c) * 16 + d, rest)
  | _ => none

/-- The character of an escape after `\u`, a surrogate pair being one character. -/
def readEscape? (cs : List Char) : Option (Char × List Char) := do
  let (high, rest) ← readUnit? cs
  let single := (Char.ofNat (if 0xd800 ≤ high && high < 0xe000 then 0xfffd else high), rest)
  if 0xd800 ≤ high && high < 0xdc00 then
    match rest with
    | '\\' :: 'u' :: more =>
      let (low, after) ← readUnit? more
      if 0xdc00 ≤ low && low < 0xe000 then
        pure (Char.ofNat (0x10000 + (high - 0xd800) * 0x400 + (low - 0xdc00)), after)
      else pure single
    | _ => pure single
  else pure single

/-- The rest of a string literal after its opening quote. -/
def readString? : Nat → List Char → Option (List Char × List Char)
  | 0, _ => none
  | fuel + 1, cs =>
    match cs with
    | [] => none
    | '"' :: rest => some ([], rest)
    | '\\' :: 'u' :: rest => do
      let (c, rest) ← readEscape? rest
      let (text, rest) ← readString? fuel rest
      pure (c :: text, rest)
    | '\\' :: e :: rest => do
      let c ← match e with
        | '"' => some '"'
        | '\\' => some '\\'
        | '/' => some '/'
        | 'b' => some '\x08'
        | 'f' => some '\x0c'
        | 'n' => some '\n'
        | 'r' => some '\r'
        | 't' => some '\t'
        | _ => none
      let (text, rest) ← readString? fuel rest
      pure (c :: text, rest)
    | c :: rest =>
      if c == '\\' || c.toNat < 32 then none
      else do
        let (text, rest) ← readString? fuel rest
        pure (c :: text, rest)

/-- A number at the start of the text. The whole part has no leading zeros. -/
def readNumber? (cs : List Char) : Option (Json × List Char) :=
  let (negative, body) := match cs with
    | '-' :: rest => (true, rest)
    | _ => (false, cs)
  let (whole, rest) := match body with
    | '0' :: rest => (['0'], rest)
    | _ => (body.takeWhile Char.isDigit, body.dropWhile Char.isDigit)
  if whole.isEmpty then none
  else
    let (fraction, rest) := match rest with
      | '.' :: after =>
        if (after.head?.any Char.isDigit) then
          (after.takeWhile Char.isDigit, after.dropWhile Char.isDigit)
        else ([], rest)
      | _ => ([], rest)
    let (exponent, rest) := match rest with
      | e :: after =>
        if e == 'e' || e == 'E' then
          let (minus, digits) := readSign after
          if (digits.head?.any Char.isDigit) then
            let n : Int := digitsValue (digits.takeWhile Char.isDigit)
            (some (if minus then -n else n), digits.dropWhile Char.isDigit)
          else (none, rest)
        else (none, rest)
      | _ => (none, rest)
    if fraction.isEmpty && exponent.isNone then
      if maxIntegerDigits < whole.length then none
      else
        let n : Int := digitsValue whole
        some (.int (if negative then -n else n), rest)
    else
      let x := Binary64.ofDecimal negative (digitsValue (whole ++ fraction))
        (exponent.getD 0 - fraction.length)
      some (.num x, rest)

/-- The rest of the text after a word it begins with. -/
def afterWord? (word : String) (cs : List Char) : Option (List Char) :=
  if word.toList.isPrefixOf cs then some (cs.drop word.length) else none

/-- A literal name or number at the start of the text. -/
def readAtom? (cs : List Char) : Option (Json × List Char) :=
  match afterWord? "null" cs, afterWord? "true" cs, afterWord? "false" cs with
  | some rest, _, _ => some (.null, rest)
  | _, some rest, _ => some (.bool true, rest)
  | _, _, some rest => some (.bool false, rest)
  | _, _, _ =>
    match afterWord? "NaN" cs, afterWord? "Infinity" cs, afterWord? "-Infinity" cs with
    | some rest, _, _ => some (.num .nan, rest)
    | _, some rest, _ => some (.num (.infinity false), rest)
    | _, _, some rest => some (.num (.infinity true), rest)
    | _, _, _ => readNumber? cs

mutual

def readValue? : Nat → List Char → Option (Json × List Char)
  | 0, _ => none
  | fuel + 1, cs =>
    match cs with
    | '"' :: rest => (readString? (rest.length + 1) rest).map fun (s, r) => (.str (String.ofList s), r)
    | '[' :: rest =>
      match skipJsonBlanks rest with
      | ']' :: after => some (.arr [], after)
      | items => (readItems? fuel items).map fun (xs, r) => (.arr xs, r)
    | '\x7b' :: rest =>
      match skipJsonBlanks rest with
      | '\x7d' :: after => some (.obj [], after)
      | members => (readMembers? fuel [] members).map fun (ms, r) => (.obj ms, r)
    | _ => readAtom? cs

/-- The items of an array up to its closing bracket. -/
def readItems? : Nat → List Char → Option (List Json × List Char)
  | 0, _ => none
  | fuel + 1, cs => do
    let (value, rest) ← readValue? fuel cs
    match skipJsonBlanks rest with
    | ',' :: after => do
      let (values, rest) ← readItems? fuel (skipJsonBlanks after)
      pure (value :: values, rest)
    | ']' :: after => pure ([value], after)
    | _ => none

/-- The members of an object up to its closing brace, added to those before. -/
def readMembers? : Nat → Members → List Char → Option (Members × List Char)
  | 0, _, _ => none
  | fuel + 1, before, cs =>
    match cs with
    | '"' :: rest => do
      let (name, rest) ← readString? (rest.length + 1) rest
      match skipJsonBlanks rest with
      | ':' :: after => do
        let (value, rest) ← readValue? fuel (skipJsonBlanks after)
        let members := before.set (String.ofList name) value
        match skipJsonBlanks rest with
        | ',' :: after => readMembers? fuel members (skipJsonBlanks after)
        | '\x7d' :: after => pure (members, after)
        | _ => none
      | _ => none
    | _ => none

end

/-- Reads a JSON text, which may start with a byte order mark. -/
def parse? (s : String) : Option Json :=
  let cs := match s.toList with
    | '\ufeff' :: rest => rest
    | cs => cs
  match readValue? (2 * cs.length + 2) (skipJsonBlanks cs) with
  | some (value, rest) => if (skipJsonBlanks rest).isEmpty then some value else none
  | none => none

end Json

end ServerDeploy
