import ServerDeploy.World.Clock

/-! Timing lines: what was done, where, how long it took and how it ended, in columns. -/

namespace ServerDeploy

namespace Log

/-- A text with blanks after it up to a width. -/
def padAfter (width : Nat) (s : String) : String :=
  s ++ String.ofList (List.replicate (width - s.length) ' ')

/-- A text with blanks before it up to a width. -/
def padBefore (width : Nat) (s : String) : String :=
  String.ofList (List.replicate (width - s.length) ' ') ++ s

structure Timing where
  operation : String
  label : Option String
  milliseconds : Binary64
  /-- What it failed with, if it did. -/
  failure : Option String
  /-- More that is said about it, by name. -/
  details : List (String × String)
  deriving Repr, Inhabited

namespace Timing

/-- The time between two readings of a clock in seconds, in milliseconds. -/
def between (start stop : Binary64) : Binary64 := (stop.sub start).mul (.ofInt 1000)

def level (t : Timing) : String := if t.failure.isSome then "WARNING" else "INFO"

def labelText (t : Timing) : String := (t.label.filter fun s => !s.isEmpty).getD "N/A"

def text (t : Timing) : String :=
  let ending := match t.failure with
    | some reason => "FAIL: " ++ reason
    | none => "OK"
  " | ".intercalate
    ([padAfter 20 t.operation, padAfter 25 t.labelText, padBefore 8 t.milliseconds.twoPlaces ++ "ms",
      ending] ++ t.details.map fun (k, v) => k ++ "=" ++ v)

end Timing

end Log

end ServerDeploy
