/-! Double precision numbers as exact data. A number is a sign and a magnitude code: the codes count
the magnitudes upwards from zero, `2 ^ 52` of them to each binary exponent, then infinity, then the
values that are no numbers. All arithmetic is rational arithmetic followed by one rounding. -/

namespace ServerDeploy

/-- A double precision number by sign and magnitude code. -/
structure Binary64 where
  negative : Bool
  code : Nat
  deriving DecidableEq, Inhabited, Repr

namespace Binary64

/-- The code of infinity, one past the largest finite magnitude. -/
def infinityCode : Nat := 2047 * Nat.pow 2 52

def infinity (negative : Bool) : Binary64 := ⟨negative, infinityCode⟩

def nan : Binary64 := ⟨false, infinityCode + Nat.pow 2 51⟩

def zero (negative : Bool) : Binary64 := ⟨negative, 0⟩

def isNaN (x : Binary64) : Bool := infinityCode < x.code

def isInfinite (x : Binary64) : Bool := x.code == infinityCode

def isFinite (x : Binary64) : Bool := x.code < infinityCode

def isZero (x : Binary64) : Bool := x.code == 0

/-- Significand and binary exponent of a finite magnitude. -/
def decode (x : Binary64) : Nat × Int :=
  if x.code < Nat.pow 2 52 then (x.code, -1074)
  else (Nat.pow 2 52 + x.code % Nat.pow 2 52, (x.code / Nat.pow 2 52 : Nat) - 1075)

/-- A quotient rounded to the nearest natural number, a half to the even neighbour. -/
def roundQuotient (num den : Nat) : Nat :=
  let q := num / den
  let twice := 2 * (num % den)
  if twice < den || (twice == den && q % 2 == 0) then q else q + 1

/-- Numerator and denominator of `num / den * 2 ^ e`. -/
def scaleBinary (num den : Nat) (e : Int) : Nat × Nat :=
  if 0 ≤ e then (num * Nat.pow 2 e.toNat, den) else (num, den * Nat.pow 2 (-e).toNat)

/-- The double nearest to a non-negative quotient, with the given sign. -/
def ofQuotient (negative : Bool) (num den : Nat) : Binary64 :=
  if num == 0 || den == 0 then zero negative
  else
    let guess : Int := (num.log2 : Int) - den.log2 - 52
    let (n, d) := scaleBinary num den (-guess)
    let exponent := max (if n / d < Nat.pow 2 52 then guess - 1 else guess) (-1074)
    let (n, d) := scaleBinary num den (-exponent)
    let code := (exponent + 1074).toNat * Nat.pow 2 52 + roundQuotient n d
    ⟨negative, min code infinityCode⟩

/-- The magnitude of a finite double as a quotient. -/
def toQuotient (x : Binary64) : Nat × Nat :=
  let (m, e) := x.decode
  scaleBinary m 1 e

/-- The double nearest to `digits * 10 ^ exponent`. Exponents far outside the range are answered
without forming the power. -/
def ofDecimal (negative : Bool) (digits : Nat) (exponent : Int) : Binary64 :=
  if digits == 0 then zero negative
  else if 400 < exponent then infinity negative
  else if exponent < -(400 + digits.log2 : Int) then zero negative
  else if 0 ≤ exponent then ofQuotient negative (digits * Nat.pow 10 exponent.toNat) 1
  else ofQuotient negative digits (Nat.pow 10 (-exponent).toNat)

/-- The double nearest to an integer. -/
def ofInt (n : Int) : Binary64 :=
  ofQuotient (n < 0) n.natAbs 1

/-- A finite double as an integer quotient over a positive denominator. -/
def signedQuotient (x : Binary64) : Int × Nat :=
  let (n, d) := x.toQuotient
  (if x.negative then -n else n, d)

/-- The double nearest to a quotient of an integer. -/
def ofSignedQuotient (num : Int) (den : Nat) : Binary64 :=
  ofQuotient (num < 0) num.natAbs den

/-- Rounded difference of finite doubles. -/
def sub (x y : Binary64) : Binary64 :=
  let (a, b) := x.signedQuotient
  let (c, d) := y.signedQuotient
  ofSignedQuotient (a * d - c * b) (b * d)

/-- Rounded sum of finite doubles. -/
def add (x y : Binary64) : Binary64 :=
  let (a, b) := x.signedQuotient
  let (c, d) := y.signedQuotient
  ofSignedQuotient (a * d + c * b) (b * d)

/-- Rounded product of finite doubles. -/
def mul (x y : Binary64) : Binary64 :=
  let (a, b) := x.signedQuotient
  let (c, d) := y.signedQuotient
  ofSignedQuotient (a * c) (b * d)

/-- Rounded quotient by a positive integer. -/
def divNat (x : Binary64) (n : Nat) : Binary64 :=
  let (a, b) := x.signedQuotient
  ofSignedQuotient a (b * n)

/-- Whether the double is the given integer; an infinite or undefined one is none. -/
def equalsInt (x : Binary64) (n : Int) : Bool :=
  x.isFinite && (let (a, b) := x.signedQuotient; a == n * b)

/-- Numerical equality: the zeros are equal, and what is no number differs from everything. -/
def equals (x y : Binary64) : Bool :=
  !x.isNaN && !y.isNaN && ((x.isZero && y.isZero) || x == y)

end Binary64

end ServerDeploy
