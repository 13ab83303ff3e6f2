import ServerDeploy.Decimal.Shortest

/-! The text of a double: positional from `1e-4` up to below `1e16`, always with a point, and with an
exponent of at least two digits outside that range. -/

namespace ServerDeploy

structure DecimalLayout where
  /-- Leading exponents from here on are written positionally. -/
  leastPositional : Int
  /-- Leading exponents from here on are written with an exponent. -/
  firstExponential : Int
  /-- The least number of digits of a written exponent. -/
  exponentWidth : Nat
  infinityText : String
  nanText : String

/-- The layout of numbers in messages and answers. -/
def displayLayout : DecimalLayout := ⟨-4, 16, 2, "inf", "nan"⟩

/-- The layout of numbers in JSON text: only the values that are no numbers are spelt otherwise. -/
def jsonLayout : DecimalLayout := { displayLayout with infinityText := "Infinity", nanText := "NaN" }

namespace Binary64

def magnitudeText (layout : DecimalLayout) (x : Binary64) : String :=
  let decimal := x.shortest
  let digits := Nat.toDigits 10 decimal.digits
  let trailing := (digits.reverse.takeWhile (· == '0')).length
  let digits := if x.isZero then ['0'] else digits.take (digits.length - trailing)
  let lead : Int := if x.isZero then 0 else decimal.exponent + trailing + digits.length - 1
  if layout.leastPositional ≤ lead && lead < layout.firstExponential then
    if lead < 0 then
      "0." ++ String.ofList (List.replicate (-lead - 1).toNat '0' ++ digits)
    else
      let whole := digits.take (lead.toNat + 1)
      let whole := whole ++ List.replicate (lead.toNat + 1 - whole.length) '0'
      let rest := digits.drop (lead.toNat + 1)
      String.ofList whole ++ "." ++ (if rest.isEmpty then "0" else String.ofList rest)
  else
    let exponent := Nat.toDigits 10 lead.natAbs
    let padding := List.replicate (layout.exponentWidth - exponent.length) '0'
    let mantissa := match digits with
      | [] => "0"
      | [d] => String.ofList [d]
      | d :: rest => String.ofList (d :: '.' :: rest)
    mantissa ++ "e" ++ (if lead < 0 then "-" else "+") ++ String.ofList (padding ++ exponent)

def text (layout : DecimalLayout) (x : Binary64) : String :=
  if x.isNaN then layout.nanText
  else
    let sign := if x.negative then "-" else ""
    if x.isInfinite then sign ++ layout.infinityText else sign ++ x.magnitudeText layout

/-- The text of a double with exactly two decimal places, a half going to the even neighbour. -/
def twoPlaces (x : Binary64) : String :=
  if x.isNaN then displayLayout.nanText
  else
    let sign := if x.negative then "-" else ""
    if x.isInfinite then sign ++ displayLayout.infinityText
    else
      let (num, den) := x.toQuotient
      let hundredths := roundQuotient (100 * num) den
      let places := Nat.toDigits 10 (hundredths % 100)
      sign ++ toString (hundredths / 100) ++ "." ++
        String.ofList (List.replicate (2 - places.length) '0' ++ places)

end Binary64

end ServerDeploy
