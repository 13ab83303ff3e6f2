import ServerDeploy.CommandLine.Grammar

/-! The goals that can be named on the command line, and the options of each. -/

namespace ServerDeploy

namespace CommandLine

inductive GoalName where
  | addResource
  | deploy
  | deployArtifact
  | undeployArtifact
  | executeCommands
  | start
  | run
  | shutdown
  deriving DecidableEq, Repr, Inhabited

namespace GoalName

def text : GoalName → String
  | .addResource => "add-resource"
  | .deploy => "deploy"
  | .deployArtifact => "deploy-artifact"
  | .undeployArtifact => "undeploy-artifact"
  | .executeCommands => "execute-commands"
  | .start => "start"
  | .run => "run"
  | .shutdown => "shutdown"

def all : List GoalName :=
  [.addResource, .deploy, .deployArtifact, .undeployArtifact, .executeCommands, .start, .run,
    .shutdown]

def ofText? (s : String) : Option GoalName := all.find? fun g => g.text == s

end GoalName

def helpOptions : List OptionSpec := [⟨"-h", "--help", .help⟩, .named "--help" .help]

def textOptions (spellings : List String) : List OptionSpec :=
  spellings.map fun s => .named s .text

def flagOptions (spellings : List String) : List OptionSpec :=
  spellings.map fun s => .named s .flag

/-- The options of every goal: how to reach the server, and logging. -/
def connectionOptions : List OptionSpec :=
  helpOptions ++
  textOptions ["--hostname", "--username", "--password", "--id", "--settings", "--if-exists",
    "--if-not-exists"] ++
  [.named "--port" .integer, .named "--timeout" .decimal, ⟨"-v", "--verbose", .flag⟩] ++
  flagOptions ["--verbose", "--no-log-file"]

def artifactOptions : List OptionSpec :=
  textOptions ["--artifact", "--group-id", "--artifact-id", "--version", "--packaging",
    "--classifier", "--file", "--name", "--match-pattern", "--local-repository",
    "--remote-repository"]

def serverOptions : List OptionSpec :=
  textOptions ["--jboss-home", "--jboss-version", "--distribution", "--download-url", "--build-dir",
    "--java-home", "--modules-path", "--bundles-path", "--jvm-args", "--server-config",
    "--properties-file", "--server-arg"] ++
  [.named "--startup-timeout" .integer]

def forceOptions : List OptionSpec := flagOptions ["--force", "--no-force"]

def GoalName.grammar : GoalName → Grammar
  | .addResource =>
    ⟨connectionOptions ++ textOptions ["--address", "--property", "--resources", "--profile"] ++
      forceOptions ++ flagOptions ["--enable-resource", "--add-if-absent", "--dry-run"], .nothing⟩
  | .deploy =>
    ⟨connectionOptions ++ textOptions ["--name", "--match-pattern"] ++ forceOptions ++
      flagOptions ["--deploy-enabled", "--no-deploy-enabled"], .single⟩
  | .deployArtifact => ⟨connectionOptions ++ artifactOptions ++ forceOptions, .nothing⟩
  | .undeployArtifact =>
    ⟨connectionOptions ++ artifactOptions ++ flagOptions ["--ignore-missing", "--no-ignore-missing"],
      .nothing⟩
  | .executeCommands => ⟨connectionOptions ++ flagOptions ["--batch"], .several⟩
  | .start => ⟨connectionOptions ++ serverOptions, .nothing⟩
  | .run => ⟨connectionOptions ++ serverOptions ++ textOptions ["--name"] ++ forceOptions, .single⟩
  | .shutdown =>
    ⟨connectionOptions ++ flagOptions ["--reload"] ++ [.named "--reload-timeout" .integer], .nothing⟩

structure Arguments where
  goal : GoalName
  given : Given
  deriving Repr, Inhabited

/-- What may be written before the name of a goal. -/
def frontGrammar : Grammar := ⟨helpOptions, .several⟩

def readGoal (hasStray : Bool) (name : String) (rest : List String) : Except Fault Arguments :=
  match GoalName.ofText? name with
  | none => .error refusal
  | some goal => do
    let given ← goal.grammar.read rest
    if hasStray || given.hasStray then throw refusal
    pure ⟨goal, given⟩

/-- Reads arguments up to the name of a goal, and then those of the goal. -/
def readFront (hasStray : Bool) : List String → Except Fault Arguments
  | [] => .error refusal
  | s :: rest => do
    match ← frontGrammar.token s with
    | .plain name => readGoal hasStray name rest
    | .dashes => throw refusal
    | .unknown => readFront true rest
    | .option o attached => do
      let said ← readings frontGrammar (s.length + 1) o attached
      let _ ← Given.takeReadings .empty said []
      readFront true rest

def read (arguments : List String) : Except Fault Arguments := readFront false arguments

end CommandLine

end ServerDeploy
