import ServerDeploy.CommandLine.Options
import ServerDeploy.Goal.Basic
import ServerDeploy.Resource.File
import ServerDeploy.Server.Distribution

/-! The goal that arguments select, with its options filled in. -/

namespace ServerDeploy

namespace Goal

open CommandLine

/-- The choices that the arguments make about the connection. -/
def settingsChoices (given : Given) : SettingsChoices where
  hostname := given.text? "--hostname"
  port := given.integer? "--port"
  user := given.text? "--username"
  password := given.text? "--password"
  serverId := given.text? "--id"
  settingsFile := given.text? "--settings"
  timeout := (given.decimal? "--timeout").map .real
  ifExists := given.text? "--if-exists"
  ifNotExists := given.text? "--if-not-exists"

def isForced (given : Given) : Bool := given.choice "--force" "--no-force" true

def positional (given : Given) : String := (given.positionals.getD []).headD ""

def archiveOf (given : Given) : Archive := ⟨.ofText (positional given), given.text? "--name"⟩

/-- The coordinates that are written as one text or part by part; empty texts do not count. -/
def coordinatesOf (given : Given) : Except Fault (Option Coordinates) :=
  let part (key : String) : Option String := given.text? key
  let isGiven (key : String) : Bool := Coordinates.isGiven (part key)
  if isGiven "--artifact" then
    match Coordinates.parse ((part "--artifact").getD "") with
    | .ok c => .ok (some c)
    | .error problem => .error (.deploy (.artifact problem))
  else if isGiven "--group-id" || isGiven "--artifact-id" || isGiven "--version" then
    .ok (some ⟨part "--group-id", part "--artifact-id", part "--version",
      (part "--packaging").getD Coordinates.defaultPackaging, part "--classifier"⟩)
  else .ok none

def repositoriesOf (home : Path) (given : Given) : Repositories :=
  let remotes := given.texts "--remote-repository"
  .choose home ((given.text? "--local-repository").map .ofText)
    (if remotes.isEmpty then Repositories.defaultRemotes else remotes)

variable {σ : Type}

/-- The resources of a file, or the single one that the options describe. -/
def resourcesOf (given : Given) : Run σ (List Resource) :=
  match given.text? "--resources" with
  | some file => Resource.load (.ofText file)
  | none => do
    let r ← Run.ofExcept (Resource.ofOptions none (given.texts "--property")
      (given.has "--enable-resource") (given.has "--add-if-absent"))
    pure [r]

/-- The server to launch. Its home is looked for, and made from a distribution if need be. -/
def serverOf (given : Given) : Run σ ServerConfig := do
  let w ← get
  let distribution : Distribution :=
    ⟨.ofText ((given.text? "--build-dir").getD "target"), given.text? "--jboss-home",
      some ((given.text? "--jboss-version").getD Distribution.defaultVersion),
      (given.text? "--distribution").getD Distribution.defaultArtifact,
      given.text? "--download-url"⟩
  let home ← distribution.resolve (.choose w.home none Repositories.defaultRemotes)
  let jvmArguments := (given.text? "--jvm-args").getD ServerConfig.defaultJvmArguments
  pure {
    home := home
    javaHome := given.text? "--java-home" <|> w.setting? "JAVA_HOME"
    modulesDirectory := given.text? "--modules-path"
    bundlesDirectory := given.text? "--bundles-path"
    jvmArguments := splitArguments (some jvmArguments)
    configurationFile := given.text? "--server-config"
    propertiesFile := given.text? "--properties-file"
    serverArguments := given.texts "--server-arg"
    startupTimeout :=
      .whole ((given.integer? "--startup-timeout").getD ServerConfig.defaultStartupTimeout) }

def taskOf (a : Arguments) : Run σ Task := do
  let given := a.given
  match a.goal with
  | .addResource => do
    let resources ← resourcesOf given
    pure (.addResources resources (given.text? "--address") (given.texts "--profile")
      (isForced given) (given.has "--dry-run"))
  | .deploy =>
    pure (.deploy (archiveOf given) (isForced given)
      (given.choice "--deploy-enabled" "--no-deploy-enabled" true) (given.text? "--match-pattern"))
  | .deployArtifact => do
    let coordinates ← Run.ofExcept (coordinatesOf given)
    pure (.deployArtifact coordinates (given.text? "--file") (given.text? "--name")
      (repositoriesOf (← get).home given) (isForced given) (given.text? "--match-pattern"))
  | .undeployArtifact => do
    let coordinates ← Run.ofExcept (coordinatesOf given)
    pure (.undeployArtifact coordinates (given.text? "--file") (given.text? "--name")
      (given.text? "--match-pattern") (given.choice "--ignore-missing" "--no-ignore-missing" true))
  | .executeCommands =>
    pure (.executeCommands ⟨given.positionals.getD [], given.has "--batch"⟩)
  | .start => .start <$> serverOf given
  | .run => do
    let config ← serverOf given
    pure (.run config (archiveOf given) (isForced given))
  | .shutdown =>
    pure (.shutdown (given.has "--reload") ((given.integer? "--reload-timeout").getD 30))

/-- The goal that arguments select. The settings of the connection are read first. -/
def select (a : Arguments) : Run σ Goal := do
  let w ← get
  let settings ← Run.ofExcept (ConnectionSettings.ofEnvironment w.setting? (settingsChoices a.given))
  let task ← taskOf a
  pure ⟨settings, task⟩

end Goal

end ServerDeploy
