import ServerDeploy.Decimal.Binary64
import ServerDeploy.Text.Blank
import ServerDeploy.Text.Digit

/-! Reading numbers from texts as an operator writes them: white space around, decimal digits of any
script, single low lines between digits. -/

namespace ServerDeploy

/-- Integers with more decimal digits than this are neither read nor written as decimal text. -/
def maxIntegerDigits : Nat := 4300

inductive IntegerRefusal where
  | malformed
  | tooLong (digits : Nat)
  deriving DecidableEq, Repr

/-- White space around a number; the four information separators are not skipped here. -/
def isNumberBlank (c : Char) : Bool :=
  isBlank c && !(0x1c ≤ c.toNat && c.toNat ≤ 0x1f)

/-- The text without the white space that may surround a number. -/
def trimNumber (cs : List Char) : List Char :=
  ((cs.dropWhile isNumberBlank).reverse.dropWhile isNumberBlank).reverse

/-- Sign and rest of a number text. -/
def readSign : List Char → Bool × List Char
  | '-' :: cs => (true, cs)
  | '+' :: cs => (false, cs)
  | cs => (false, cs)

/-- The leading digits, low lines between two digits left out, and the text after them.
`afterDigit` tells whether a digit stands just before. -/
def digitRun (afterDigit : Bool) : List Char → List Char × List Char
  | [] => ([], [])
  | c :: cs =>
    if isDecimalDigit c then
      let (digits, after) := digitRun true cs
      (c :: digits, after)
    else if c == '_' && afterDigit && cs.head?.any isDecimalDigit then digitRun false cs
    else ([], c :: cs)

def readDigits (cs : List Char) : List Char × List Char := digitRun false cs

def readInteger (cs : List Char) : Except IntegerRefusal Int :=
  let (negative, body) := readSign (trimNumber cs)
  match readDigits body with
  | (digits, []) =>
    if digits.isEmpty then .error .malformed
    else if maxIntegerDigits < digits.length then .error (.tooLong digits.length)
    else .ok (if negative then -(digitsValue digits) else digitsValue digits)
  | _ => .error .malformed

/-- The exponent part of a decimal text, which must be its end. -/
def readExponent? : List Char → Option Int
  | [] => some 0
  | c :: cs =>
    if c == 'e' || c == 'E' then
      let (negative, body) := readSign cs
      match readDigits body with
      | (digits, []) =>
        if digits.isEmpty then none
        else some (if negative then -(digitsValue digits) else digitsValue digits)
      | _ => none
    else none

/-- Reads a decimal number text, or one of the names of infinity and of what is no number. -/
def readDecimal? (cs : List Char) : Option Binary64 :=
  let (negative, body) := readSign (trimNumber cs)
  let name := String.ofList (body.map Char.toLower)
  if name == "inf" || name == "infinity" then some (.infinity negative)
  else if name == "nan" then some .nan
  else
    let (whole, rest) := readDigits body
    let (fraction, rest) := match rest with
      | '.' :: after => readDigits after
      | _ => ([], rest)
    if whole.isEmpty && fraction.isEmpty then none
    else
      (readExponent? rest).map fun e =>
        .ofDecimal negative (digitsValue (whole ++ fraction)) (e - fraction.length)

end ServerDeploy
