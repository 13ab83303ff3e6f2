import ServerDeploy.Decimal.Reader
import ServerDeploy.Fault

/-! Numbers among settings, given as text. -/

namespace ServerDeploy

namespace Settings

def integerOf (s : String) : Except Fault Int :=
  (readInteger s.toList).mapError fun refusal =>
    match refusal with
    | .malformed => .value ("invalid literal for int() with base 10: " ++ quoted s)
    | .tooLong digits => .oversizeReading digits

def decimalOf (s : String) : Except Fault Binary64 :=
  match readDecimal? s.toList with
  | some x => .ok x
  | none => .error (.value ("could not convert string to float: " ++ quoted s))

end Settings

end ServerDeploy
