import ServerDeploy.Decimal.Binary64

/-! The fewest decimal digits that read back as the same double, and of those the nearest. For one,
two, up to seventeen digits the two neighbours of the value on that decimal grid are compared, in
exact arithmetic, with the interval of the reals that round to it. -/

namespace ServerDeploy

namespace Binary64

/-- Digits and the decimal exponent of the last of them: `digits * 10 ^ exponent`. -/
structure Decimal where
  digits : Nat
  exponent : Int
  deriving DecidableEq, Repr

/-- Numerator and denominator of `10 ^ e`. -/
def tenPower (e : Int) : Nat × Nat :=
  if 0 ≤ e then (Nat.pow 10 e.toNat, 1) else (1, Nat.pow 10 (-e).toNat)

/-- The ends of the interval that rounds to a finite non-zero double, and whether they belong to it.
Each end is a quotient; the value lies in the middle except just above a power of two. -/
def roundingInterval (x : Binary64) : (Nat × Nat) × (Nat × Nat) × Bool :=
  let (m, e) := x.decode
  let low :=
    if m == Nat.pow 2 52 && e != -1074 then scaleBinary (4 * m - 1) 1 (e - 2)
    else scaleBinary (2 * m - 1) 1 (e - 1)
  (low, scaleBinary (2 * m + 1) 1 (e - 1), m % 2 == 0)

/-- The decimal exponent of the leading digit of a positive quotient, from a guess that is at most
a few units off. -/
def leadingExponent (num den : Nat) : Int :=
  let guess : Int := ((num.log2 : Int) - den.log2) * 30103 / 100000 - 2
  let reaches (e : Int) : Bool := let (p, q) := tenPower e; p * den ≤ num * q
  if reaches (guess + 4) then guess + 4
  else if reaches (guess + 3) then guess + 3
  else if reaches (guess + 2) then guess + 2
  else if reaches (guess + 1) then guess + 1
  else guess

/-- The better of the two neighbours with the given exponent of the last digit, if either reads
back: the nearer one, an exact tie going to the even digit. -/
def gridCandidate? (x : Binary64) (exponent : Int) : Option Decimal :=
  let (num, den) := x.toQuotient
  let ((lowNum, lowDen), (highNum, highDen), closed) := x.roundingInterval
  let (p, q) := tenPower exponent
  let inside (d : Nat) : Bool :=
    let above := if closed then lowNum * q ≤ d * p * lowDen else lowNum * q < d * p * lowDen
    let below := if closed then d * p * highDen ≤ highNum * q else d * p * highDen < highNum * q
    above && below
  let d := num * q / (den * p)
  let twiceRest := 2 * (num * q % (den * p))
  let downFirst := twiceRest < den * p || (twiceRest == den * p && d % 2 == 0)
  if inside d && d != 0 then
    if inside (d + 1) && !downFirst then some ⟨d + 1, exponent⟩ else some ⟨d, exponent⟩
  else if inside (d + 1) then some ⟨d + 1, exponent⟩
  else none

/-- The digits of a finite double's magnitude, without trailing zeros. -/
def shortest (x : Binary64) : Decimal :=
  if x.isZero then ⟨0, 0⟩
  else
    let (num, den) := x.toQuotient
    let lead := leadingExponent num den
    let grids := (List.range 17).map fun (k : Nat) => lead - (k : Int)
    (grids.findSome? (gridCandidate? x)).getD ⟨0, 0⟩

end Binary64

end ServerDeploy
