import ServerDeploy.Settings.Number
import ServerDeploy.World.State

/-! Where and how to reach the management endpoint: defaults, environment variables over them, and
explicit choices over both. -/

namespace ServerDeploy

/-- The settings of a connection. The two conditions decide whether a goal runs at all. -/
structure ConnectionSettings where
  hostname : String
  port : Int
  user : Option String
  password : Option String
  serverId : Option String
  settingsFile : Option String
  timeout : Seconds
  ifExists : Option String
  ifNotExists : Option String
  deriving Repr, Inhabited

/-- Choices made explicitly; what is not chosen stays as the environment has it. -/
structure SettingsChoices where
  hostname : Option String := none
  port : Option Int := none
  user : Option String := none
  password : Option String := none
  serverId : Option String := none
  settingsFile : Option String := none
  timeout : Option Seconds := none
  ifExists : Option String := none
  ifNotExists : Option String := none
  deriving Repr, Inhabited

namespace ConnectionSettings

/-- The settings from environment variables, with explicit choices over them. The port is read
before the timeout. -/
def ofEnvironment (setting? : String → Option String) (choices : SettingsChoices) :
    Except Fault ConnectionSettings := do
  let port ← Settings.integerOf ((setting? "JBOSS_DEPLOY_PORT").getD "9990")
  let timeout ← Settings.decimalOf ((setting? "JBOSS_DEPLOY_TIMEOUT").getD "60.0")
  pure {
    hostname := choices.hostname.getD ((setting? "JBOSS_DEPLOY_HOSTNAME").getD "localhost")
    port := choices.port.getD port
    user := choices.user <|> setting? "JBOSS_DEPLOY_USERNAME"
    password := choices.password <|> setting? "JBOSS_DEPLOY_PASSWORD"
    serverId := choices.serverId
    settingsFile := choices.settingsFile
    timeout := choices.timeout.getD (.real timeout)
    ifExists := choices.ifExists
    ifNotExists := choices.ifNotExists }

end ConnectionSettings

end ServerDeploy
