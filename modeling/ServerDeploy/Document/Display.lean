import ServerDeploy.Document.Basic

/-! The display of documents in messages, and the text of scalars where they serve as names. -/

namespace ServerDeploy

/-- A number with leading zeros up to a width. -/
def padded (width n : Nat) : String :=
  let digits := Nat.toDigits 10 n
  String.ofList (List.replicate (width - digits.length) '0' ++ digits)

namespace Date

/-- Year, month and day joined by hyphens. -/
def text (d : Date) : String :=
  padded 4 d.year ++ "-" ++ padded 2 d.month ++ "-" ++ padded 2 d.day

/-- The three numbers as arguments of a display. -/
def parts (d : Date) : List String := [toString d.year, toString d.month, toString d.day]

end Date

namespace Timestamp

/-- A zone offset as hours and minutes, and seconds where it has some. -/
def zoneText (offset : Int) : String :=
  let n := offset.natAbs
  let seconds := if n % 60 == 0 then "" else ":" ++ padded 2 (n % 60)
  (if offset < 0 then "-" else "+") ++ padded 2 (n / 3600) ++ ":" ++ padded 2 (n / 60 % 60) ++ seconds

/-- Day and time with a space between, and the zone offset after them. -/
def text (t : Timestamp) : String :=
  let fraction := if t.microsecond == 0 then "" else "." ++ padded 6 t.microsecond
  t.date.text ++ " " ++ padded 2 t.hour ++ ":" ++ padded 2 t.minute ++ ":" ++ padded 2 t.second ++
    fraction ++ (t.zone.map zoneText).getD ""

/-- The display of a zone offset, in whole days and the seconds that remain. -/
def zoneDisplay (offset : Int) : String :=
  if offset == 0 then "datetime.timezone.utc"
  else
    let days := offset / 86400
    let dayPart := if days == 0 then [] else ["days=" ++ toString days]
    let secondPart := if offset % 86400 == 0 then [] else ["seconds=" ++ toString (offset % 86400)]
    "datetime.timezone(" ++ enclose "datetime.timedelta(" ")" (dayPart ++ secondPart) ++ ")"

/-- The display of a point in time: seconds are left out when they and the microseconds are zero. -/
def display (t : Timestamp) : String :=
  let small :=
    if t.microsecond != 0 then [toString t.second, toString t.microsecond]
    else if t.second != 0 then [toString t.second]
    else []
  let zone := (t.zone.map fun z => ["tzinfo=" ++ zoneDisplay z]).getD []
  enclose "datetime.datetime(" ")"
    (t.date.parts ++ [toString t.hour, toString t.minute] ++ small ++ zone)

end Timestamp

/-- The display of raw bytes: as a quoted text with every byte outside ASCII escaped. -/
def displayBytes (bs : List UInt8) : String :=
  let cs := bs.map fun b => Char.ofNat b.toNat
  let quote := Quoted.quoteFor cs
  let escape (c : Char) : List Char :=
    if c.toNat < 127 then Quoted.escape quote c else '\\' :: 'x' :: hexDigits 2 c.toNat
  "b" ++ String.ofList (quote :: cs.flatMap escape ++ [quote])

namespace Scalar

def display : Scalar → String
  | .null => "None"
  | .bool b => displayBool b
  | .int n => toString n
  | .num x => x.text displayLayout
  | .text s => quoted s
  | .date d => enclose "datetime.date(" ")" d.parts
  | .stamp t => t.display
  | .bytes bs => displayBytes bs

def asText : Scalar → String
  | .text s => s
  | .date d => d.text
  | .stamp t => t.text
  | s => s.display

end Scalar

namespace Document

mutual

def display : Document → String
  | .scalar s => s.display
  | .list items => enclose "[" "]" (displayItems items)
  | .map entries => enclose "\x7b" "\x7d" (displayEntries entries)

def displayItems : List Document → List String
  | [] => []
  | v :: rest => display v :: displayItems rest

def displayEntries : List (Scalar × Document) → List String
  | [] => []
  | (k, v) :: rest => (k.display ++ ": " ++ display v) :: displayEntries rest

end

def asText : Document → String
  | .scalar s => s.asText
  | v => v.display

end Document

end ServerDeploy
