import ServerDeploy.Fault
import ServerDeploy.Yaml.Node

/-! The documents that nodes stand for. Merge keys bring in the pairs of other mappings, keys must be
scalars, and of several equal keys the last value counts. -/

namespace ServerDeploy

namespace Yaml

inductive Refusal where
  | malformed
  | fault (f : Fault)
  deriving Repr

/-- An integer text that cannot be converted. -/
def badInteger (base : Nat) (cs : List Char) : Refusal :=
  .fault (.value ("invalid literal for int() with base " ++ toString base ++ ": " ++
    quoted (String.ofList cs)))

def digitIn? (base : Nat) (c : Char) : Option Nat :=
  (Json.hexValue? c).bind fun n => if n < base then some n else none

def readBase (base : Nat) (cs : List Char) : Except Refusal Nat :=
  let value := cs.foldl (fun n? c => do pure (base * (← n?) + (← digitIn? base c))) (some 0)
  match cs, value with
  | _ :: _, some n => .ok n
  | _, _ => .error (badInteger base cs)

def readDecimalInteger (cs : List Char) : Except Refusal Int :=
  (readInteger cs).mapError fun refusal =>
    match refusal with
    | .malformed => badInteger 10 cs
    | .tooLong digits => .fault (.oversizeReading digits)

/-- Groups to the base of sixty, the last one being the units. -/
def readSexagesimal (cs : List Char) : Except Refusal Int :=
  (splitAtChar ':' cs).foldlM (fun n group => do
    let d ← readDecimalInteger group
    pure (60 * n + d)) 0

def readYamlInteger (text : List Char) : Except Refusal Int :=
  let cs := text.filter (· != '_')
  match cs with
  | [] => .error (.fault .shape)
  | c :: rest =>
    let body := if c == '+' || c == '-' then rest else cs
    let signed (r : Except Refusal Int) : Except Refusal Int :=
      r.map fun n => if c == '-' then -n else n
    match body with
    | [] => .error (.fault .shape)
    | ['0'] => .ok 0
    | '0' :: 'b' :: digits => signed ((readBase 2 digits).map Int.ofNat)
    | '0' :: 'x' :: digits => signed ((readBase 16 digits).map Int.ofNat)
    | '0' :: _ => signed ((readBase 8 body).map Int.ofNat)
    | _ =>
      if body.contains ':' then signed (readSexagesimal body) else signed (readDecimalInteger body)

/-- The double written by a text, or the refusal to convert it. -/
def readYamlDecimal (cs : List Char) : Except Refusal Binary64 :=
  match readDecimal? cs with
  | some x => .ok x
  | none =>
    .error (.fault (.value ("could not convert string to float: " ++ quoted (String.ofList cs))))

def readYamlFloat (text : List Char) : Except Refusal Binary64 :=
  let cs := (text.filter (· != '_')).map Char.toLower
  match cs with
  | [] => .error (.fault .shape)
  | c :: rest =>
    let body := if c == '+' || c == '-' then rest else cs
    let signed (x : Binary64) : Binary64 := if c == '-' then ⟨!x.negative, x.code⟩ else x
    match String.ofList body with
    | ".inf" => .ok (signed (.infinity false))
    | ".nan" => .ok .nan
    | _ =>
      if body.contains ':' then do
        let groups ← (splitAtChar ':' body).mapM readYamlDecimal
        let (value, _) := groups.reverse.foldl
          (fun ((value : Binary64), (base : Nat)) d =>
            (value.add (d.mul (.ofInt base)), 60 * base)) (.zero false, 1)
        pure (signed value)
      else (readYamlDecimal body).map signed

def daysInMonth (year month : Nat) : Nat :=
  if month == 2 then
    if year % 4 == 0 && (year % 100 != 0 || year % 400 == 0) then 29 else 28
  else if month == 4 || month == 6 || month == 9 || month == 11 then 30
  else 31

def checkedDate (year month day : Nat) : Except Refusal Date :=
  let refuse (message : String) : Except Refusal Date := .error (.fault (.value message))
  if year == 0 then refuse "year 0 is out of range"
  else if month == 0 || 12 < month then refuse "month must be in 1..12"
  else if day == 0 || daysInMonth year month < day then refuse "day is out of range for month"
  else .ok ⟨year, month, day⟩

/-- The first six digits of a fraction as microseconds. -/
def microseconds (fraction : List Char) : Nat :=
  let digits := fraction.take 6
  digitsValue (digits ++ List.replicate (6 - digits.length) '0')

def readTimestamp (text : List Char) : Except Refusal Scalar :=
  match stampFields? text with
  | none => .error (.fault .shape)
  | some fields => do
    let date ← checkedDate fields.year fields.month fields.day
    match fields.time with
    | none => pure (.date date)
    | some (hour, minute, second, fraction) =>
      let refuse (message : String) : Except Refusal Scalar := .error (.fault (.value message))
      if 23 < hour then refuse "hour must be in 0..23"
      else if 59 < minute then refuse "minute must be in 0..59"
      else if 59 < second then refuse "second must be in 0..59"
      else
        let zone := fields.zone.map fun (west, hours, minutes) =>
          let offset : Int := 3600 * hours + 60 * minutes
          if west then -offset else offset
        pure (.stamp ⟨date, hour, minute, second, microseconds fraction, zone⟩)

/-- The bytes that a Base64 text stands for; blanks do not count. -/
def readBase64 (text : List Char) : Except Refusal (List UInt8) :=
  let digit? (c : Char) : Option Nat :=
    if c.isUpper then some (c.toNat - 65)
    else if c.isLower then some (c.toNat - 71)
    else if c.isDigit then some (c.toNat + 4)
    else if c == '+' then some 62
    else if c == '/' then some 63
    else none
  let digits := (text.filterMap digit?)
  let padding := (text.filter (· == '=')).length
  if (digits.length + padding) % 4 != 0 then .error .malformed
  else
    let bits := digits.flatMap fun d => (List.range 6).map fun i => d / Nat.pow 2 (5 - i) % 2
    let bytes := (List.range (bits.length / 8)).map fun i =>
      UInt8.ofNat (((bits.drop (8 * i)).take 8).foldl (fun n b => 2 * n + b) 0)
    .ok bytes

def readScalar (tag : Tag) (text : List Char) : Except Refusal Scalar :=
  match tag with
  | .null => .ok .null
  | .bool =>
    let name := String.ofList (text.map Char.toLower)
    if ["yes", "true", "on"].contains name then .ok (.bool true)
    else if ["no", "false", "off"].contains name then .ok (.bool false)
    else .error (.fault .shape)
  | .int => (readYamlInteger text).map .int
  | .float => (readYamlFloat text).map .num
  | .str => .ok (.text (String.ofList text))
  | .timestamp => readTimestamp text
  | .binary => (readBase64 text).map .bytes
  | .merge | .value | .seq | .map | .unknown => .error .malformed

/-- The pairs of a mapping with those that its merge keys bring in before them. The first argument
bounds the chain of merges. -/
def mergedPairs : Nat → List (Node × Node) → Except Refusal (List (Node × Node))
  | 0, _ => .error .malformed
  | fuel + 1, pairs => do
    let brought ← pairs.mapM fun (k, v) =>
      match k with
      | .scalar .merge _ =>
        match v with
        | .mapping _ inner => mergedPairs fuel inner
        | .sequence _ items => do
          let parts ← items.mapM fun n =>
            match n with
            | .mapping _ inner => mergedPairs fuel inner
            | _ => .error .malformed
          pure parts.reverse.flatten
        | .scalar _ _ => .error .malformed
      | _ => .ok []
    let own := pairs.filterMap fun (k, v) =>
      match k with
      | .scalar .merge _ => none
      | .scalar .value text => some (.scalar .str text, v)
      | _ => some (k, v)
    pure (brought.flatten ++ own)

/-- The document of a node. The first argument bounds the nesting. -/
def document : Nat → Node → Except Refusal Document
  | 0, _ => .error .malformed
  | fuel + 1, n =>
    match n with
    | .scalar tag text => (readScalar tag text).map .scalar
    | .sequence .seq items => do
      let values ← items.mapM (document fuel)
      pure (.list values)
    | .mapping .map pairs => do
      let pairs ← mergedPairs fuel pairs
      let entries ← pairs.mapM fun (k, v) => do
        match ← document fuel k with
        | .scalar key =>
          let value ← document fuel v
          pure (key, value)
        | _ => .error .malformed
      pure (.map (Entries.ofList entries))
    | .sequence _ _ | .mapping _ _ => .error .malformed

/-- The text with line ends of any kind written as line feeds. -/
def unifyLineEnds : List Char → List Char
  | '\r' :: '\n' :: rest => '\n' :: unifyLineEnds rest
  | '\r' :: rest => '\n' :: unifyLineEnds rest
  | c :: rest => c :: unifyLineEnds rest
  | [] => []

/-- Reads a text as YAML. A text without a document stands for null. -/
def parse (s : String) : Except Refusal Document :=
  let cs := unifyLineEnds s.toList
  match node? cs with
  | none => .error .malformed
  | some none => .ok .null
  | some (some n) => document (cs.length + 2) n

end Yaml

end ServerDeploy
