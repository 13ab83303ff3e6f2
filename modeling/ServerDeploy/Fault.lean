import ServerDeploy.Command.Problem
import ServerDeploy.Deployment.Action
import ServerDeploy.Document.Json
import ServerDeploy.Json.Display
import ServerDeploy.TypedLiteral.Problem
import ServerDeploy.World.Clock
import ServerDeploy.World.Files

/-! Everything that can go wrong. Failures of a deployment are reported to the operator with a
message; the other faults come from the surroundings or from values of the wrong shape. -/

namespace ServerDeploy

inductive ConfigurationProblem where
  | resourcesNotList
  | resourceNotMapping (shown : String)
  | unknownOptions (names : List String)
  | addressNotText (shown : String)
  | propertiesNotMapping (address : String)
  | childrenNotList (address : String)
  | unsupportedProperty (key address shown : String)
  | commandsNotList
  | invalidHook (shown : String)
  | malformedProperty (option : String)
  | resourceFileMissing (path : String)
  | invalidYaml (path : String)
  | unknownProfiles (unknown known : List String)
  | bothConditions
  | invalidPattern (pattern reason : String)
  | settingsFileMissing (path : String)
  | serversNotMapping (path : String)
  | invalidServerHome (path : String)
  | invalidModulesPath (path : String)
  | invalidDistribution (text : String)
  | noDistributionSource
  | unclearServerHome (path : String)
  | escapingEntry (entry target : String)
  | deploymentMissing (path : String)
  | nothingToUndeploy
  deriving DecidableEq, Repr

namespace ConfigurationProblem

def message : ConfigurationProblem → String
  | .resourcesNotList => "'resources' must be a list"
  | .resourceNotMapping shown => "Invalid resource definition: " ++ shown
  | .unknownOptions names => "Unknown resource options: " ++ ", ".intercalate names
  | .addressNotText shown => "Resource address must be a string: " ++ shown
  | .propertiesNotMapping address => "Properties of " ++ address ++ " must be a mapping"
  | .childrenNotList address => "Nested resources of " ++ address ++ " must be a list"
  | .unsupportedProperty key address shown =>
    "Unsupported value for property '" ++ key ++ "' of " ++ address ++ ": " ++ shown ++
      ". Quote it to send it as a string."
  | .commandsNotList => "Hook 'commands' must be a list"
  | .invalidHook shown => "Invalid hook commands: " ++ shown
  | .malformedProperty option => "Invalid property '" ++ option ++ "', expected key=value"
  | .resourceFileMissing path => "Resource file not found: " ++ path
  | .invalidYaml path => "Invalid YAML in " ++ path
  | .unknownProfiles unknown known =>
    "Unknown profiles: " ++ ", ".intercalate unknown ++ ". Available: " ++ ", ".intercalate known
  | .bothConditions => "Cannot define both if-exists and if-not-exists"
  | .invalidPattern pattern reason =>
    "Invalid deployment name pattern '" ++ pattern ++ "': " ++ reason
  | .settingsFileMissing path => "Settings file not found: " ++ path
  | .serversNotMapping path => "'servers' in " ++ path ++ " must be a mapping of server ids"
  | .invalidServerHome path => "JBOSS_HOME '" ++ path ++ "' is not a valid directory."
  | .invalidModulesPath path => "Modules path '" ++ path ++ "' is not a valid directory."
  | .invalidDistribution text =>
    "Invalid distribution '" ++ text ++ "', expected group:artifact[:version]"
  | .noDistributionSource =>
    "Cannot download the server runtime. Please specify either a valid version or a download URL"
  | .unclearServerHome path => "Cannot determine the server home inside " ++ path
  | .escapingEntry entry target => "Refusing to extract " ++ entry ++ " outside " ++ target
  | .deploymentMissing path => "The deployment '" ++ path ++ "' could not be found."
  | .nothingToUndeploy =>
    "Specify the artifact, file, deployment name or match pattern to undeploy"

end ConfigurationProblem

/-- Trouble with the management endpoint itself. -/
inductive ConnectionProblem where
  | closed (endpoint : String)
  | unreachable (operation endpoint reason : String)
  | notUploaded (name endpoint reason : String)
  | given (text : String)
  deriving DecidableEq, Repr

def ConnectionProblem.message : ConnectionProblem → String
  | .closed endpoint => "Client for " ++ endpoint ++ " is closed"
  | .unreachable operation endpoint reason =>
    "Could not execute operation '" ++ operation ++ "' on " ++ endpoint ++ ": " ++ reason
  | .notUploaded name endpoint reason =>
    "Could not upload " ++ name ++ " to " ++ endpoint ++ ": " ++ reason
  | .given text => text

/-- Artifacts that cannot be located or downloaded. -/
inductive ArtifactProblem where
  | invalidCoordinates (text : String)
  | noArtifactId
  | noGroupId
  | noVersion
  | fileMissing (name : String)
  | unresolved (coordinates : String)
  | unresolvedFrom (coordinates : String) (repositories : List String)
  | refused (url : String) (status : Nat)
  | runtimeRefused (url : String) (status : Nat)
  deriving DecidableEq, Repr

def ArtifactProblem.message : ArtifactProblem → String
  | .invalidCoordinates text =>
    "Invalid artifact coordinates '" ++ text ++
      "', expected group:artifact:version[:packaging[:classifier]]"
  | .noArtifactId => "You must specify the artifactId"
  | .noGroupId => "You must specify the groupId"
  | .noVersion => "You must specify the version"
  | .fileMissing name => "File does not exist: " ++ name
  | .unresolved coordinates => "Could not resolve artifact " ++ coordinates
  | .unresolvedFrom coordinates repositories =>
    "Could not resolve artifact " ++ coordinates ++ " from " ++ ", ".intercalate repositories
  | .refused url status => "Failed to download " ++ url ++ ": HTTP " ++ toString status
  | .runtimeRefused url status =>
    "Cannot download server runtime from URL '" ++ url ++ "': HTTP " ++ toString status

/-- A local server that does not come up. -/
inductive StartProblem where
  | jarMissing (path : String)
  | alreadyRunning
  | notLaunched (command reason : String)
  | exited (code : Int)
  | notStarted (timeout : Seconds)
  | notReloaded (timeout : Seconds)
  deriving DecidableEq, Repr

def StartProblem.message : StartProblem → String
  | .jarMissing path => "Cannot find: " ++ path
  | .alreadyRunning => "The server is already running."
  | .notLaunched command reason => "Could not launch " ++ command ++ ": " ++ reason
  | .exited code => "The server process exited with code " ++ toString code ++ "."
  | .notStarted timeout => "Server did not start within " ++ timeout.text ++ " seconds."
  | .notReloaded timeout => "The server did not reload within " ++ timeout.text ++ " seconds."

inductive DeployError where
  | configuration (problem : ConfigurationProblem)
  | addressSegment (part : String)
  | emptyAddress
  | missingAddress
  | property (key shown : String)
  | literal (raw : String) (problem : TypedLiteral.Problem) (position : Nat)
  | command (problem : CommandProblem)
  | resourceExists (address : String)
  | noProfiles
  | ambiguousCriteria
  /-- The server's failure description is kept as it came, null if there was none. -/
  | operationFailed (message : String) (description : Json)
  | connection (problem : ConnectionProblem)
  | invalidHost (name : String)
  | deploymentFailed (message : String) (action : ActionResult)
  | deploymentNotFound (criterion : String)
  | domainUnsupported
  | artifact (problem : ArtifactProblem)
  | serverStart (problem : StartProblem)
  deriving Repr

namespace DeployError

def message : DeployError → String
  | .configuration problem => problem.message
  | .addressSegment part => part ++ " is not a valid address segment"
  | .emptyAddress => "The address is empty."
  | .missingAddress => "You must specify the address to deploy the resource to."
  | .property key shown => "Invalid property " ++ quoted key ++ "=" ++ shown
  | .literal raw problem position =>
    "Invalid typed value '" ++ raw ++ "': " ++ problem.message ++ " at position " ++ toString position
  | .command problem => problem.message
  | .resourceExists address => "Resource " ++ address ++ " already exists."
  | .noProfiles => "Cannot add resources when no profiles were defined."
  | .ambiguousCriteria =>
    "deployment name and deployment name pattern are both missing. One of them must be set in " ++
      "order to find an existing deployment."
  | .operationFailed message _ => message
  | .connection problem => problem.message
  | .invalidHost name => "Host name '" ++ name ++ "' is invalid."
  | .deploymentFailed message _ => message
  | .deploymentNotFound criterion =>
    "No deployment matching '" ++ criterion ++ "' was found on the server."
  | .domainUnsupported =>
    "Deployments to a domain controller are not supported, target a standalone server instead."
  | .artifact problem => problem.message
  | .serverStart problem => problem.message

/-- What the server said about a failed operation: its description as it came, else the message. -/
def description : DeployError → Json
  | .operationFailed message .null => .str message
  | .operationFailed _ description => description
  | e => .str e.message

end DeployError

/-- Kinds of refusals by the operating system. -/
inductive SystemFault where
  | file (fault : FileFault)
  | other
  | timedOut
  | refused
  | reset
  | brokenPipe
  deriving DecidableEq, Repr

/-- Anything that ends a computation early. -/
inductive Fault where
  | deploy (e : DeployError)
  /-- A text or number that cannot be converted. -/
  | value (message : String)
  /-- A value of a shape that the computation cannot use. -/
  | shape
  | interrupted
  /-- The transport failed outside the management protocol. -/
  | transport (reason : String)
  | closedSession
  /-- A download was sent from one place to the next too often. -/
  | redirectLimit
  | system (fault : SystemFault)
  | brokenArchive
  | invalidYaml
  /-- The command line was refused. -/
  | usage (code : Nat)
  deriving Repr

namespace Fault

def configuration (problem : ConfigurationProblem) : Fault := .deploy (.configuration problem)

/-- The message about an integer too long to be read. -/
def oversizeReading (digits : Nat) : Fault :=
  .value ("Exceeds the limit (" ++ toString maxIntegerDigits ++
    " digits) for integer string conversion: value has " ++ toString digits ++
    " digits; use sys.set_int_max_str_digits() to increase the limit")

/-- The message about an integer too long to be written. -/
def oversizeWriting : Fault :=
  .value ("Exceeds the limit (" ++ toString maxIntegerDigits ++
    " digits) for integer string conversion; use sys.set_int_max_str_digits() to increase the limit")

def unwritable : Unwritable → Fault
  | .wrongType => .shape
  | .oversizeInteger => oversizeWriting

/-- A literal that cannot be read; problems are placed by the number of characters before them. -/
def literal (raw : String) : TypedLiteral.Failure → Fault
  | .malformed problem rest => .deploy (.literal raw problem (raw.length - rest.length))
  | .oversize digits => oversizeReading digits

end Fault

end ServerDeploy
