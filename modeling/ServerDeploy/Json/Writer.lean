import ServerDeploy.Json.Display

/-! JSON text. Characters outside printable ASCII are written as `\u` escapes, in surrogate pairs
beyond the basic plane; a comma and a colon are followed by one space. -/

namespace ServerDeploy

namespace Json

def unitEscape (n : Nat) : List Char := '\\' :: 'u' :: hexDigits 4 n

/-- The written form of one character of a JSON string. -/
def escapeChar (c : Char) : List Char :=
  if c == '"' then ['\\', '"']
  else if c == '\\' then ['\\', '\\']
  else if c == '\n' then ['\\', 'n']
  else if c == '\r' then ['\\', 'r']
  else if c == '\t' then ['\\', 't']
  else if c.toNat == 8 then ['\\', 'b']
  else if c.toNat == 12 then ['\\', 'f']
  else if 32 ≤ c.toNat && c.toNat < 127 then [c]
  else if c.toNat < 0x10000 then unitEscape c.toNat
  else
    let n := c.toNat - 0x10000
    unitEscape (0xd800 + n / 0x400) ++ unitEscape (0xdc00 + n % 0x400)

def stringLiteral (s : String) : String :=
  String.ofList ('"' :: s.toList.flatMap escapeChar ++ ['"'])

/-- The JSON spelling of a truth value. -/
def boolText (b : Bool) : String := if b then "true" else "false"

mutual

/-- The JSON text of a value on one line. -/
def write : Json → String
  | .null => "null"
  | .bool b => boolText b
  | .int n => toString n
  | .num x => x.text jsonLayout
  | .str s => stringLiteral s
  | .arr items => enclose "[" "]" (writeItems items)
  | .obj members => enclose "\x7b" "\x7d" (writeMembers members)

def writeItems : List Json → List String
  | [] => []
  | v :: rest => write v :: writeItems rest

def writeMembers : List (String × Json) → List String
  | [] => []
  | (k, v) :: rest => (stringLiteral k ++ ": " ++ write v) :: writeMembers rest

end

/-- Parts on lines of their own, two spaces deeper than the marks around them. -/
def encloseLines (depth : Nat) (opening closing : String) (parts : List String) : String :=
  if parts.isEmpty then opening ++ closing
  else
    let line (d : Nat) := "\n" ++ String.ofList (List.replicate (2 * d) ' ')
    opening ++ line (depth + 1) ++ ("," ++ line (depth + 1)).intercalate parts ++ line depth ++ closing

mutual

/-- The JSON text of a value over several lines, nested at the given depth. -/
def writeLines (depth : Nat) : Json → String
  | .arr items => encloseLines depth "[" "]" (writeItemLines (depth + 1) items)
  | .obj members => encloseLines depth "\x7b" "\x7d" (writeMemberLines (depth + 1) members)
  | v => write v

def writeItemLines (depth : Nat) : List Json → List String
  | [] => []
  | v :: rest => writeLines depth v :: writeItemLines depth rest

def writeMemberLines (depth : Nat) : List (String × Json) → List String
  | [] => []
  | (k, v) :: rest =>
    (stringLiteral k ++ ": " ++ writeLines depth v) :: writeMemberLines depth rest

end

end Json

end ServerDeploy
