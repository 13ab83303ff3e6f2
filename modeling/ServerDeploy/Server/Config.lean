import ServerDeploy.Text.Split
import ServerDeploy.World.FileAccess

/-! Where a local server lives and how it is launched. System properties among the arguments move its
directories. -/

namespace ServerDeploy

/-- The arguments written by a text, separated by blanks. -/
def splitArguments (s : Option String) : List String :=
  match s with
  | some s => (words s.toList).map String.ofList
  | none => []

structure ServerConfig where
  home : Path
  javaHome : Option String
  modulesDirectory : Option String
  bundlesDirectory : Option String
  jvmArguments : List String
  configurationFile : Option String
  propertiesFile : Option String
  serverArguments : List String
  startupTimeout : Seconds
  deriving Repr, Inhabited

namespace ServerConfig

/-- The arguments a Java machine gets when none are chosen. -/
def defaultJvmArguments : String :=
  "-Xms64m -Xmx512m -XX:MaxPermSize=256m -Djava.net.preferIPv4Stack=true " ++
    "-Dorg.jboss.resolver.warning=true -Dsun.rmi.dgc.client.gcInterval=3600000 " ++
    "-Dsun.rmi.dgc.server.gcInterval=3600000"

/-- How many seconds a server may take to start when nothing else is chosen. -/
def defaultStartupTimeout : Int := 60

def systemProperty? (argument : String) : Option (String × String) :=
  match argument.toList with
  | '-' :: 'D' :: rest =>
    let (key, value) := cutAtChar '=' rest
    some (String.ofList key, String.ofList (value.getD []))
  | _ => none

/-- The last value that the arguments give a system property, unless it is empty. -/
def override? (c : ServerConfig) (key : String) : Option String :=
  let values := (c.jvmArguments ++ c.serverArguments).filterMap fun argument =>
    (systemProperty? argument).bind fun (k, v) => if k == key then some v else none
  values.getLast?.filter fun v => !v.isEmpty

/-- A directory that was chosen, unless the choice is empty. -/
def chosen (directory : Option String) (fallback : Path) : Path :=
  match directory.filter fun s => !s.isEmpty with
  | some s => .ofText s
  | none => fallback

def modulesPath (c : ServerConfig) : Path := chosen c.modulesDirectory (c.home.child "modules")

def bundlesPath (c : ServerConfig) : Path := chosen c.bundlesDirectory (c.home.child "bundles")

def baseDirectory (c : ServerConfig) : Path :=
  chosen (c.override? "jboss.server.base.dir") (c.home.child "standalone")

def configurationDirectory (c : ServerConfig) : Path :=
  chosen (c.override? "jboss.server.config.dir") (c.baseDirectory.child "configuration")

def logDirectory (c : ServerConfig) : Path :=
  chosen (c.override? "jboss.server.log.dir") (c.baseDirectory.child "log")

def javaExecutable (c : ServerConfig) : String :=
  match c.javaHome.filter fun s => !s.isEmpty with
  | some home => (((Path.ofText home).child "bin").child "java").text
  | none => "java"

def modulesArchive (c : ServerConfig) : Path := c.home.child "jboss-modules.jar"

def optionArguments (name : String) (value : Option String) : List String :=
  match value with
  | some v => [name, v]
  | none => []

def command (c : ServerConfig) (directory : Path) : List String :=
  [c.javaExecutable] ++ c.jvmArguments ++
  ["-Djboss.home.dir=" ++ c.home.text,
    "-Dorg.jboss.boot.log.file=" ++ (c.logDirectory.child "boot.log").text,
    "-Dlogging.configuration=file:" ++ (c.configurationDirectory.child "logging.properties").text,
    "-Djboss.bundles.dir=" ++ c.bundlesPath.text,
    "-jar", (directory.join c.modulesArchive).text,
    "-mp", c.modulesPath.text,
    "-jaxpmodule", "javax.xml.jaxp-provider",
    "org.jboss.as.standalone"] ++
  optionArguments "-server-config" c.configurationFile ++
  optionArguments "-P" c.propertiesFile ++
  c.serverArguments

variable {σ : Type}

/-- The directories that a launch depends on must be there. -/
def validate (c : ServerConfig) : Run σ Unit := do
  if !(← Run.isDirectory c.home) then throw (.configuration (.invalidServerHome c.home.text))
  if !(← Run.isDirectory c.modulesPath) then
    throw (.configuration (.invalidModulesPath c.modulesPath.text))

/-- The launch command. The archive it starts from must be there. -/
def launchCommand (c : ServerConfig) : Run σ (List String) := do
  if !(← Run.pathExists c.modulesArchive) then
    Run.fail (.serverStart (.jarMissing c.modulesArchive.text))
  pure (c.command (← get).directory)

end ServerConfig

end ServerDeploy
