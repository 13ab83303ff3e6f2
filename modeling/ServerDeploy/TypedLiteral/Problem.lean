/-! What can be wrong with a typed literal. -/

namespace ServerDeploy

namespace TypedLiteral

/-- What the reader missed or did not expect. -/
inductive Problem where
  | endOfInput
  | trailing
  | character
  | unterminatedString
  | number
  | listMark
  | objectMark
  | key
  | arrow
  | mark (c : Char)
  | hexByte
  | keyword (word : String)
  | numberKind
  | unknownNumberKind (word : String)
  deriving DecidableEq, Repr

def Problem.message : Problem → String
  | .endOfInput => "unexpected end of input"
  | .trailing => "unexpected trailing characters"
  | .character => "unexpected character"
  | .unterminatedString => "unterminated string"
  | .number => "invalid number"
  | .listMark => "expected ',' or ']'"
  | .objectMark => "expected ',' or '\x7d'"
  | .key => "expected a key"
  | .arrow => "expected '=>'"
  | .mark c => "expected '" ++ String.singleton c ++ "'"
  | .hexByte => "expected a hex byte"
  | .keyword word => "unknown keyword '" ++ word ++ "'"
  | .numberKind => "expected a keyword"
  | .unknownNumberKind word => "unknown big number type '" ++ word ++ "'"

/-- A failed reading: a problem with the text that was left when it was met, or an integer with too
many digits to be read. -/
inductive Failure where
  | malformed (problem : Problem) (rest : List Char)
  | oversize (digits : Nat)
  deriving DecidableEq, Repr

end TypedLiteral

end ServerDeploy
