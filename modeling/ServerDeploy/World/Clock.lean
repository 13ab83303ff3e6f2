import ServerDeploy.Decimal.Display

/-! Time. The clock counts whole milliseconds and only waiting moves it; durations are given in
seconds, as integers or as doubles. -/

namespace ServerDeploy

inductive Seconds where
  | whole (n : Int)
  | real (x : Binary64)
  deriving DecidableEq, Repr, Inhabited

namespace Seconds

def text : Seconds → String
  | .whole n => toString n
  | .real x => x.text displayLayout

def toBinary64 : Seconds → Binary64
  | .whole n => .ofInt n
  | .real x => x

def milliseconds (s : Seconds) : Nat :=
  let ms := s.toBinary64.mul (.ofInt 1000)
  if ms.negative || !ms.isFinite then 0
  else
    let (num, den) := ms.toQuotient
    Binary64.roundQuotient num den

/-- Whether a finite double is at least a duration. -/
def isReached (elapsed : Binary64) (s : Seconds) : Bool :=
  match s with
  | .whole n =>
    let (a, b) := elapsed.signedQuotient
    n * b ≤ a
  | .real x =>
    if x.isNaN then false
    else if x.isInfinite then x.negative
    else
      let (a, b) := elapsed.signedQuotient
      let (c, d) := x.signedQuotient
      c * b ≤ a * d

end Seconds

/-- The time between two clock readings in milliseconds, in seconds as doubles. -/
def elapsedSeconds (start now : Nat) : Binary64 :=
  (Binary64.ofQuotient false now 1000).sub (.ofQuotient false start 1000)

end ServerDeploy
