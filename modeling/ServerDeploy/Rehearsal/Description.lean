import ServerDeploy.Goal.Basic
import ServerDeploy.Rehearsal.Transcript

/-! Descriptions of goals and of what they gave, as JSON. -/

namespace ServerDeploy

def textOrNull (s : Option String) : Json := (s.map Json.str).getD .null

/-- A property value; the name of the member says how it is meant. -/
def PropertyValue.toJson : PropertyValue → Json
  | .text s => .obj [("$string", .str s)]
  | .literal s => .obj [("$typed", .str s)]

def Hook.toJson : Option Hook → Json
  | none => .null
  | some h => .obj [("commands", .arr (h.commands.map .str)), ("batch", .bool h.batch)]

mutual

def Resource.toJson : Resource → Json
  | .mk address properties enable addIfAbsent children beforeAdd afterAdd =>
    .obj [("address", textOrNull address),
      ("properties", .arr (properties.map fun (k, v) => .arr [.str k, v.toJson])),
      ("enable", .bool enable), ("add_if_absent", .bool addIfAbsent),
      ("resources", .arr (Resource.listToJson children)),
      ("before_add", Hook.toJson beforeAdd), ("after_add", Hook.toJson afterAdd)]

def Resource.listToJson : List Resource → List Json
  | [] => []
  | r :: rest => r.toJson :: Resource.listToJson rest

end

/-- A batch of a report, with the number of its steps. -/
def Batch.toJson (b : Batch) : Json :=
  .obj [("address", .str b.address), ("profile", textOrNull b.profile),
    ("status", .str b.status.name), ("steps", .int b.steps.length), ("error", textOrNull b.error)]

def Report.members (r : Report) : Members :=
  [("success", .bool r.success), ("dry_run", .bool r.dryRun),
    ("batches", .arr (r.batches.map Batch.toJson))]

def Archive.toJson (a : Archive) : Json :=
  .obj [("path", .str a.path.text), ("name", textOrNull a.name),
    ("deployment_name", .str a.deploymentName)]

def ActionResult.toJson (a : ActionResult) : Json :=
  .obj [("operation", a.operation), ("deployment", a.deployment), ("outcome", .str a.outcome.name),
    ("failure", a.failure)]

def Coordinates.toJson (c : Coordinates) : Json :=
  .obj [("group", textOrNull c.group), ("artifact", textOrNull c.artifact),
    ("version", textOrNull c.version), ("packaging", .str c.packaging),
    ("classifier", textOrNull c.classifier)]

def ConnectionSettings.toJson (s : ConnectionSettings) : Json :=
  .obj [("hostname", .str s.hostname), ("port", .int s.port), ("username", textOrNull s.user),
    ("password", textOrNull s.password), ("server_id", textOrNull s.serverId),
    ("settings_file", textOrNull s.settingsFile), ("timeout", s.timeout.toJson),
    ("if_exists", textOrNull s.ifExists), ("if_not_exists", textOrNull s.ifNotExists)]

def ServerConfig.toJson (c : ServerConfig) : Json :=
  let path (p : Path) : Json := .str p.text
  let texts (xs : List String) : Json := .arr (xs.map .str)
  .obj [("jboss_home", path c.home), ("java_home", textOrNull c.javaHome),
    ("modules_dir", textOrNull c.modulesDirectory), ("bundles_dir", textOrNull c.bundlesDirectory),
    ("jvm_args", texts c.jvmArguments), ("server_config", textOrNull c.configurationFile),
    ("properties_file", textOrNull c.propertiesFile), ("server_args", texts c.serverArguments),
    ("startup_timeout", c.startupTimeout.toJson), ("modules_path", path c.modulesPath),
    ("bundles_path", path c.bundlesPath), ("base_dir", path c.baseDirectory),
    ("config_dir", path c.configurationDirectory), ("log_dir", path c.logDirectory),
    ("java_executable", .str c.javaExecutable)]

def DeploymentPlan.members : DeploymentPlan → Members
  | .add archive enabled => [("content", archive.toJson), ("enabled", .bool enabled)]
  | .replace archive existing enabled =>
    [("content", archive.toJson), ("existing_name", .str existing), ("enabled", .bool enabled)]
  | .remove existing => [("existing_name", .str existing)]
  | .nothing reason => [("reason", .str reason)]

def Task.members : Task → Members
  | .addResources resources base profiles force dryRun =>
    [("resources", .arr (Resource.listToJson resources)), ("address", textOrNull base),
      ("profiles", .arr (profiles.map .str)), ("force", .bool force), ("dry_run", .bool dryRun)]
  | .executeCommands commands => [("commands", Hook.toJson (some commands))]
  | .deploy archive force enabled pattern =>
    [("content", archive.toJson), ("force", .bool force), ("match_pattern", textOrNull pattern),
      ("type", .str (DeploymentType.deploying force enabled).name)]
  | .deployArtifact coordinates file name repositories force pattern =>
    [("coordinates", (coordinates.map Coordinates.toJson).getD .null), ("file", textOrNull file),
      ("deployment_name", textOrNull name), ("force", .bool force),
      ("match_pattern", textOrNull pattern), ("type", .str (artifactType force).name),
      ("local_repository", .str repositories.localPath.text),
      ("remote_repositories", .arr (repositories.remotes.map .str))]
  | .undeployArtifact coordinates file name pattern ignoreMissing =>
    [("coordinates", (coordinates.map Coordinates.toJson).getD .null), ("file", textOrNull file),
      ("deployment_name", textOrNull name), ("match_pattern", textOrNull pattern),
      ("ignore_missing", .bool ignoreMissing)]
  | .start server => [("server_config", server.toJson)]
  | .run server archive force =>
    [("server_config", server.toJson), ("content", archive.toJson), ("force", .bool force)]
  | .shutdown reload timeout => [("reload", .bool reload), ("reload_timeout", .int timeout)]

/-- The members of a goal: its name, its settings and the options of its task. -/
def Goal.members (g : Goal) : Members :=
  [("name", .str g.task.name), ("preconditions", .bool g.task.hasPreconditions),
    ("settings", g.settings.toJson)] ++ g.task.members

end ServerDeploy
