import ServerDeploy.Server.Config

/-! Scripts of rehearsals: what the endpoint, the network, the server process and the operator will
answer, and which files there are, as one JSON object. -/

namespace ServerDeploy

namespace Rehearsal

def part (name : String) (script : Json) : Json := (script.member? name).getD .null

def textOf : Json → String
  | .str s => s
  | _ => ""

def itemsOf : Json → List Json
  | .arr items => items
  | _ => []

def textsOf (v : Json) : List String := (itemsOf v).map textOf

/-- The status of a response; it is a success if none is given. -/
def statusOf (v : Json) : Nat :=
  match v.member? "status" with
  | some (.int n) => n.toNat
  | _ => 200

/-- A null body stands for a response without one. -/
def bodyOf : Json → Body
  | .null => .text ""
  | v => .json v

/-- The reply of the endpoint that a value stands for. An object with a `$json`, `$text`, `$fail`,
`$interrupt` or `$challenge` member says what comes back; any other value is a body. -/
def replyOf (v : Json) : Reply :=
  match v.member? "$json", v.member? "$text", v.member? "$fail" with
  | some body, _, _ => .answer (statusOf v) (bodyOf body)
  | _, some t, _ => .answer (statusOf v) (.text (textOf t))
  | _, _, some t => .lost (textOf t)
  | none, none, none =>
    if (v.member? "$interrupt").isSome then .interrupted
    else if (v.member? "$challenge").isSome then .challenge
    else .answer 200 (.json v)

/-- The archive that a list of entries stands for. -/
def archiveOf (v : Json) : Content :=
  .archive ((itemsOf v).map fun e =>
    match e with
    | .arr [name, text] => (textOf name, textOf text)
    | _ => ("", ""))

/-- Adds what a value stands for at a path under a root: a directory, an archive or a text, with the
directories above it. -/
def addEntry (root : Place) (files : Files) (path : String) (v : Json) : Files :=
  let parts := (Path.ofText path).parts
  let made (parts : List String) : Files :=
    match files.makeDirectories root parts with
    | .ok files => files
    | .error _ => files
  match v with
  | .null => made parts
  | .arr items => (made parts.dropLast).set (root ++ parts) (.file (archiveOf (.arr items)))
  | v => (made parts.dropLast).set (root ++ parts) (.file (.text (textOf v)))

def filesOf (root : Place) (v : Json) : Files :=
  let start : Files := ⟨[(root, .directory)]⟩
  match v with
  | .obj members => members.foldl (fun files (path, v) => addEntry root files path v) start
  | _ => start

def lookupOf : Json → Lookup
  | .str s => .found s
  | _ => .unknown

/-- The answer to a download that a value stands for. -/
def downloadOf (v : Json) : Download :=
  let location := (v.member? "location").map textOf
  match v.member? "fail", v.member? "broken", v.member? "zip" with
  | some t, _, _ => .lost (.transport (textOf t))
  | _, some t, _ => .broken (textOf t) (.system .other)
  | _, _, some entries => .served (statusOf v) location (archiveOf entries)
  | none, none, none => .served (statusOf v) location (.text (textOf (part "content" v)))

def pollOf : Json → Poll
  | .int n => .exited n
  | .str _ => .interrupted
  | _ => .running

def waitOf : Json → Wait
  | .int n => .exited n
  | _ => .timedOut

def launchRefusalOf : Json → Option String
  | .str s => some s
  | _ => none

def processOf (v : Json) : ServerProcess :=
  ⟨(itemsOf (part "polls" v)).map pollOf, (itemsOf (part "waits" v)).map waitOf,
    launchRefusalOf (part "launch_error" v), false, []⟩

/-- The environment that an object of texts stands for. -/
def environmentOf : Json → List (String × String)
  | .obj members => members.map fun (k, v) => (k, textOf v)
  | _ => []

def secondsOf? : Json → Option Seconds
  | .int n => some (.whole n)
  | .num x => some (.real x)
  | _ => none

def textOf? : Json → Option String
  | .str s => some s
  | _ => none

/-- The server configuration that an object stands for, with the Java home to use if it names none. -/
def serverConfigOf (v : Json) (javaHome : Option String) : ServerConfig where
  home := .ofText (textOf (part "jboss_home" v))
  javaHome := textOf? (part "java_home" v) <|> javaHome
  modulesDirectory := textOf? (part "modules_dir" v)
  bundlesDirectory := textOf? (part "bundles_dir" v)
  jvmArguments := match v.member? "jvm_args" with
    | some items => textsOf items
    | none => splitArguments (some ServerConfig.defaultJvmArguments)
  configurationFile := textOf? (part "server_config" v)
  propertiesFile := textOf? (part "properties_file" v)
  serverArguments := textsOf (part "server_args" v)
  startupTimeout := (secondsOf? (part "startup_timeout" v)).getD
    (.whole ServerConfig.defaultStartupTimeout)

/-- The world of a script, with its files under a root that is the current directory. The operator is
patient enough for every check that the endpoint can answer. -/
def worldOf (root : Path) (script : Json) : World Script :=
  let replies := (itemsOf (part "responses" script)).map replyOf
  { World.quiet replies root (root.child "home") with
    files := filesOf root.parts (part "files" script)
    environment := environmentOf (part "env" script)
    lookups := (itemsOf (part "hosts" script)).map lookupOf
    downloads := (itemsOf (part "downloads" script)).map downloadOf
    process := processOf (part "process" script)
    terminal := ⟨(textsOf (part "prompts" script)).map .ok, replies.length + 2, [], [], []⟩ }

end Rehearsal

end ServerDeploy
