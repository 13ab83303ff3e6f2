import ServerDeploy.Json.Reader

/-! Tags say what kind of value a node is. A plain scalar without a tag gets the kind its text looks
like. -/

namespace ServerDeploy

namespace Yaml

inductive Tag where
  | null
  | bool
  | int
  | float
  | str
  | timestamp
  | binary
  | merge
  | value
  | seq
  | map
  | unknown
  deriving DecidableEq, Repr, Inhabited

def standardTags : List Char := "tag:yaml.org,2002:".toList

def Tag.ofName (name : List Char) : Tag :=
  if standardTags.isPrefixOf name then
    match String.ofList (name.drop standardTags.length) with
    | "null" => .null
    | "bool" => .bool
    | "int" => .int
    | "float" => .float
    | "str" => .str
    | "timestamp" => .timestamp
    | "binary" => .binary
    | "seq" => .seq
    | "map" => .map
    | _ => .unknown
  else .unknown

def truthNames : List String :=
  ["yes", "Yes", "YES", "true", "True", "TRUE", "on", "On", "ON"]

def falsehoodNames : List String :=
  ["no", "No", "NO", "false", "False", "FALSE", "off", "Off", "OFF"]

def nullNames : List String := ["", "~", "null", "Null", "NULL"]

def isDigitOrLine (c : Char) : Bool := c.isDigit || c == '_'

def dropSign : List Char → List Char
  | '+' :: cs => cs
  | '-' :: cs => cs
  | cs => cs

/-- Groups after colons, each of one or two digits below sixty, up to the given end. -/
def isSexagesimalTail (stops : List Char → Bool) : List Char → Bool
  | ':' :: a :: b :: cs =>
    if a.isDigit && b.isDigit then a ≤ '5' && (stops cs || isSexagesimalTail stops cs)
    else a.isDigit && (stops (b :: cs) || isSexagesimalTail stops (b :: cs))
  | [':', a] => a.isDigit && stops []
  | _ => false

/-- Integers: binary, octal after a zero, decimal, hexadecimal, and groups to the base of sixty. -/
def looksLikeInt (cs : List Char) : Bool :=
  match dropSign cs with
  | [] => false
  | ['0'] => true
  | '0' :: 'b' :: c :: rest => (c :: rest).all fun d => d == '0' || d == '1' || d == '_'
  | '0' :: 'x' :: c :: rest => (c :: rest).all fun d => (Json.hexValue? d).isSome || d == '_'
  | '0' :: rest => rest.all fun d => ('0' ≤ d && d ≤ '7') || d == '_'
  | c :: rest =>
    c.isDigit &&
      (rest.all isDigitOrLine || isSexagesimalTail List.isEmpty (rest.dropWhile isDigitOrLine))

/-- Nothing, or an exponent with a sign. -/
def isExponentTail : List Char → Bool
  | [] => true
  | e :: s :: d :: rest =>
    (e == 'e' || e == 'E') && (s == '+' || s == '-') && (d :: rest).all Char.isDigit
  | _ => false

/-- Decimal numbers have a point, and exponents a sign; also groups to the base of sixty with a
point, and the names of infinity and of what is no number. -/
def looksLikeFloat (cs : List Char) : Bool :=
  let body := dropSign cs
  let name := String.ofList body
  if name == ".inf" || name == ".Inf" || name == ".INF" then true
  else if [".nan", ".NaN", ".NAN"].contains (String.ofList cs) then true
  else match cs with
    | '.' :: d :: rest => d.isDigit && isExponentTail (rest.dropWhile isDigitOrLine)
    | _ =>
      match body with
      | c :: rest =>
        c.isDigit &&
          (match rest.dropWhile isDigitOrLine with
            | '.' :: after => isExponentTail (after.dropWhile isDigitOrLine)
            | tail =>
              isSexagesimalTail
                (fun t => match t with
                  | '.' :: after => after.all isDigitOrLine
                  | _ => false) tail)
      | [] => false

structure StampFields where
  year : Nat
  month : Nat
  day : Nat
  time : Option (Nat × Nat × Nat × List Char)
  /-- Sign, hours and minutes of the zone, or universal time. -/
  zone : Option (Bool × Nat × Nat)

/-- A number of at least `low` and at most `high` digits, as many as there are. -/
def digitField? (low high : Nat) (cs : List Char) : Option (Nat × List Char) :=
  let digits := (cs.takeWhile Char.isDigit).take high
  if digits.length < low then none
  else some (digits.foldl (fun n d => 10 * n + (d.toNat - 48)) 0, cs.drop digits.length)

def expectChar? (c : Char) : List Char → Option (List Char)
  | d :: cs => if d == c then some cs else none
  | [] => none

/-- The zone at the end of a time stamp text. -/
def zoneField? (cs : List Char) : Option (Option (Bool × Nat × Nat)) :=
  match cs.dropWhile fun c => c == ' ' || c == '\t' with
  | [] => if cs.isEmpty then some none else none
  | ['Z'] => some (some (false, 0, 0))
  | s :: rest =>
    if s == '+' || s == '-' then do
      let (hours, rest) ← digitField? 1 2 rest
      match rest with
      | [] => pure (some (s == '-', hours, 0))
      | _ => do
        let rest ← expectChar? ':' rest
        let (minutes, rest) ← digitField? 2 2 rest
        if rest.isEmpty then pure (some (s == '-', hours, minutes)) else none
    else none

/-- Reads a time stamp text: a day, or a day and a time with perhaps a fraction and a zone. -/
def stampFields? (cs : List Char) : Option StampFields := do
  let (year, rest) ← digitField? 4 4 cs
  let rest ← expectChar? '-' rest
  let (month, afterMonth) ← digitField? 1 2 rest
  let rest' ← expectChar? '-' afterMonth
  let (day, afterDay) ← digitField? 1 2 rest'
  if afterDay.isEmpty then
    if rest.length == 5 then pure ⟨year, month, day, none, none⟩ else none
  else
    let time := match afterDay with
      | c :: after =>
        if c == 'T' || c == 't' then some after
        else if c == ' ' || c == '\t' then
          some (after.dropWhile fun c => c == ' ' || c == '\t')
        else none
      | [] => none
    let time ← time
    let (hour, rest) ← digitField? 1 2 time
    let rest ← expectChar? ':' rest
    let (minute, rest) ← digitField? 2 2 rest
    let rest ← expectChar? ':' rest
    let (second, rest) ← digitField? 2 2 rest
    let (fraction, rest) := match rest with
      | '.' :: after => (after.takeWhile Char.isDigit, after.dropWhile Char.isDigit)
      | _ => ([], rest)
    let zone ← zoneField? rest
    pure ⟨year, month, day, some (hour, minute, second, fraction), zone⟩

/-- The kind that a plain scalar without a tag looks like. -/
def Tag.ofPlain (cs : List Char) : Tag :=
  let s := String.ofList cs
  if truthNames.contains s || falsehoodNames.contains s then .bool
  else if looksLikeFloat cs then .float
  else if looksLikeInt cs then .int
  else if s == "<<" then .merge
  else if nullNames.contains s then .null
  else if (stampFields? cs).isSome then .timestamp
  else if s == "=" then .value
  else .str

end Yaml

end ServerDeploy
