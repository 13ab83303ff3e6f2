import ServerDeploy.World.State

/-! Trying again. Failures of the transport are worth another attempt after a wait that doubles each
time; a condition is checked at fixed intervals until it holds or the time is up. -/

namespace ServerDeploy

/-- Only failures to reach the other side are worth another attempt. -/
def Fault.isTransient : Fault → Bool
  | .deploy (.connection _) => true
  | .transport _ => true
  | .system .refused | .system .reset | .system .timedOut => true
  | _ => false

/-- How often to try and how long to wait in between. -/
structure RetryPolicy where
  attempts : Int
  leastWait : Seconds
  mostWait : Seconds
  deriving Repr, Inhabited

namespace RetryPolicy

/-- Three attempts, one to ten seconds apart. -/
def download : RetryPolicy := ⟨3, .whole 1, .whole 10⟩

/-- Three attempts, one to five seconds apart. -/
def launchType : RetryPolicy := ⟨3, .whole 1, .whole 5⟩

/-- The wait before a retry in milliseconds: it doubles from one second on, within the limits. -/
def wait (p : RetryPolicy) (retry : Nat) : Nat :=
  max p.leastWait.milliseconds (min (1000 * Nat.pow 2 (retry - 1)) p.mostWait.milliseconds)

end RetryPolicy

namespace Run

variable {σ : Type} {α : Type}

/-- Tries up to `left` more times after the attempt with the given number. -/
def retryFrom (policy : RetryPolicy) (body : Run σ α) : Nat → Nat → Run σ α
  | 0, _ => body
  | left + 1, attempt =>
    tryCatch body fun fault =>
      if fault.isTransient then do
        sleep (policy.wait attempt)
        retryFrom policy body left (attempt + 1)
      else throw fault

/-- Tries as a policy says; the last failure is the one that is seen. -/
def withRetry (policy : RetryPolicy) (body : Run σ α) : Run σ α :=
  retryFrom policy body (policy.attempts - 1).toNat 1

/-- Whether the time since a clock reading has reached a duration. -/
def hasElapsed (start : Nat) (timeout : Seconds) : Run σ Bool := do
  pure (timeout.isReached (elapsedSeconds start (← get).now))

/-- Checks a condition up to a number of times, waiting in between. -/
def pollFrom (condition : Run σ Bool) (timeout interval : Seconds) (start : Nat) : Nat → Run σ Bool
  | 0 => pure false
  | checks + 1 => do
    if ← condition then pure true
    else if ← hasElapsed start timeout then pure false
    else do
      sleep interval.milliseconds
      pollFrom condition timeout interval start checks

/-- More checks than a finite timeout leaves room for: a clock that has gone on by a millisecond for each
of them is past all that a double can hold. -/
@[irreducible] def mostChecks : Nat := 1000 * Nat.pow 2 1024 + 1

/-- Checks a condition at fixed intervals until it holds or the timeout has passed since the first
check began. Tells whether it held. -/
def waitUntil (condition : Run σ Bool) (timeout interval : Seconds) : Run σ Bool := do
  let start := (← get).now
  pollFrom condition timeout interval start (mostChecks)

end Run

end ServerDeploy
