import ServerDeploy.Command.Split
import ServerDeploy.Model.Operation

/-! Commands as they are typed at the management prompt: an address after a slash, a colon, the name
of an operation and perhaps its parameters in parentheses. Parameter values in the syntax of typed
literals are read as such; any other value is a text. -/

namespace ServerDeploy

namespace Command

/-- A quoted value without its quotes and escapes; any other value as it is. -/
def unquote (cs : List Char) : List Char :=
  match cs with
  | '"' :: rest =>
    if rest.getLast? == some '"' then
      replacePair '\\' '\\' '\\' (replacePair '\\' '"' '"' rest.dropLast)
    else cs
  | _ => cs

/-- The segment of one node of a command's address. Only the stored key is trimmed. -/
def nodeSegment (command : String) (node : List Char) : Except CommandProblem (String × String) :=
  match cutAtChar '=' node with
  | (key, some value) =>
    let value := unquote (trimBlanks value)
    if key.isEmpty || value.isEmpty then .error (.addressNode (String.ofList node) command)
    else .ok (String.ofList (trimBlanks key), String.ofList value)
  | (_, none) => .error (.addressNode (String.ofList node) command)

def nodeSegments (command : String) :
    List (List Char) → Except CommandProblem (List (String × String))
  | [] => .ok []
  | node :: nodes => do
    let segment ← nodeSegment command node
    let segments ← nodeSegments command nodes
    pure (segment :: segments)

/-- The address in front of the colon: empty, a slash, or nodes each after a slash. -/
def readAddress (command : String) (cs : List Char) : Except CommandProblem Address :=
  match trimBlanks cs with
  | [] => .ok .empty
  | ['/'] => .ok .empty
  | '/' :: nodes => do
    let nodes ← split '/' nodes
    let segments ← nodeSegments command nodes
    pure ⟨segments⟩
  | _ => .error (.addressStart command)

/-- A parameter value: a typed literal if it reads as one, else its trimmed text. Only an integer of
too many digits is refused. -/
def readValue (cs : List Char) : Except Fault Json :=
  match TypedLiteral.read (trimBlanks cs) with
  | .ok v => .ok v
  | .error (.malformed _ _) => .ok (.str (String.ofList (trimBlanks cs)))
  | .error (.oversize digits) => .error (.oversizeReading digits)

/-- A parameter with its value; without an equals sign it is switched on. -/
def readParameter (command : String) (cs : List Char) : Except Fault (String × Json) :=
  let (key, value) := cutAtChar '=' cs
  let key := trimBlanks key
  if key.isEmpty then .error (.deploy (.command (.emptyParameter command)))
  else match value with
    | none => .ok (String.ofList key, .bool true)
    | some value => (readValue value).map fun v => (String.ofList key, v)

/-- The parameters in order, or the first problem. -/
def readParameters (command : String) : List (List Char) → Except Fault (List (String × Json))
  | [] => .ok []
  | cs :: rest => do
    let parameter ← readParameter command cs
    let parameters ← readParameters command rest
    pure (parameter :: parameters)

/-- The operation name and the parameters behind the colon. -/
def readRequest (command : String) (cs : List Char) :
    Except Fault (List Char × List (String × Json)) :=
  match cutAtChar '(' cs with
  | (name, none) => .ok (name, [])
  | (name, some body) =>
    if cs.getLast? != some ')' then .error (.deploy (.command (.missingParenthesis command)))
    else
      let body := trimBlanks body.dropLast
      if body.isEmpty then .ok (trimBlanks name, [])
      else
        match split ',' body with
        | .error problem => .error (.deploy (.command problem))
        | .ok parts =>
          (readParameters command parts).map fun parameters => (trimBlanks name, parameters)

/-- Reads a command as an operation. The parameters are set last, also over the name and address. -/
def read (command : String) : Except Fault Operation := do
  let text := trimBlanks command.toList
  match split ':' text with
  | .error problem => .error (.deploy (.command problem))
  | .ok [] => .error (.deploy (.command (.missingColon command)))
  | .ok [_] => .error (.deploy (.command (.missingColon command)))
  | .ok (first :: _) =>
    match readAddress command first with
    | .error problem => .error (.deploy (.command problem))
    | .ok address =>
      let (name, parameters) ← readRequest command (trimBlanks (text.drop (first.length + 1)))
      if name.isEmpty then .error (.deploy (.command (.missingName command)))
      else pure (Members.setAll (Operation.make (String.ofList name) address []) parameters)

end Command

end ServerDeploy
