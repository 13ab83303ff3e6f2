/-! What can be wrong with a command, as it is typed at the management prompt. -/

namespace ServerDeploy

/-- Why a command was refused. Each cause names the text it was found in. -/
inductive CommandProblem where
  | unbalanced (text : String)
  | missingColon (command : String)
  | addressStart (command : String)
  | addressNode (node command : String)
  | missingParenthesis (command : String)
  | emptyParameter (command : String)
  | missingName (command : String)
  deriving DecidableEq, Repr

def CommandProblem.message : CommandProblem → String
  | .unbalanced text => "Unbalanced quotes or brackets in '" ++ text ++ "'"
  | .missingColon command => "Missing ':' before the operation name in '" ++ command ++ "'"
  | .addressStart command => "Address must start with '/' in '" ++ command ++ "'"
  | .addressNode node command => "Invalid address node '" ++ node ++ "' in '" ++ command ++ "'"
  | .missingParenthesis command => "Missing ')' in '" ++ command ++ "'"
  | .emptyParameter command => "Empty parameter name in '" ++ command ++ "'"
  | .missingName command => "Missing operation name in '" ++ command ++ "'"

end ServerDeploy
