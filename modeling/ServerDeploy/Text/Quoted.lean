import ServerDeploy.Text.Printable

/-! Quoted text, the form a text takes inside the display of a larger value and in messages.
Single quotes are used unless the text holds one and no double quote. The backslash and the chosen
quote are escaped by a backslash, line feed, carriage return and tab have letters, and every other
character that is not printable is written by its code in two, four or eight hexadecimal digits. -/

namespace ServerDeploy

/-- A number as exactly `width` lower case hexadecimal digits. -/
def hexDigits (width n : Nat) : List Char :=
  let digits := Nat.toDigits 16 n
  List.replicate (width - digits.length) '0' ++ digits

namespace Quoted

def escape (quote c : Char) : List Char :=
  if c == quote || c == '\\' then ['\\', c]
  else if c == '\n' then ['\\', 'n']
  else if c == '\r' then ['\\', 'r']
  else if c == '\t' then ['\\', 't']
  else if isPrintable c then [c]
  else if c.toNat < 0x100 then '\\' :: 'x' :: hexDigits 2 c.toNat
  else if c.toNat < 0x10000 then '\\' :: 'u' :: hexDigits 4 c.toNat
  else '\\' :: 'U' :: hexDigits 8 c.toNat

/-- Double quotes only where they save an escape. -/
def quoteFor (cs : List Char) : Char :=
  if cs.contains '\'' && !cs.contains '"' then '"' else '\''

def encode (cs : List Char) : List Char :=
  let quote := quoteFor cs
  quote :: cs.flatMap (escape quote) ++ [quote]

end Quoted

def quoted (s : String) : String :=
  String.ofList (Quoted.encode s.toList)

end ServerDeploy
