import ServerDeploy.Document.Display
import ServerDeploy.World.State

/-! Transcripts of rehearsals: what was done to the world, as JSON. -/

namespace ServerDeploy

def Seconds.toJson : Seconds → Json
  | .whole n => .int n
  | .real x => .num x

/-- The content of a file; archives are only named as such. -/
def Content.toJson : Content → Json
  | .text s => .str s
  | .archive _ => .str "<zip>"

/-- A request, with the user whose credentials it carries, and with its address if that is wanted. -/
def Request.toJson (withUrl : Bool) (r : Request) : Json :=
  let carried := match r.call with
    | .operation op => [("op", op)]
    | .upload name content => [("upload", .str name), ("content", content.toJson)]
  let user := match r.user with
    | some (.scalar (.text s)) => [("auth", Json.str s)]
    | some d => [("auth", .str d.asText)]
    | none => []
  .obj (carried ++ (if withUrl then [("url", .str r.url)] else []) ++ user)

def Poll.toJson : Poll → Json
  | .running => .null
  | .exited code => .int code
  | .interrupted => .str "interrupt"

def Wait.toJson : Wait → Json
  | .exited code => .int code
  | .timedOut => .str "timeout"

/-- Something that was done to the server process. -/
def ProcessEvent.toJson : ProcessEvent → Json
  | .launch command directory =>
    .arr [.str "launch", .arr (command.map .str), .obj [("cwd", .str directory)]]
  | .poll v => .arr [.str "poll", v.toJson]
  | .wait timeout v => .arr [.str "wait", (timeout.map Seconds.toJson).getD .null, v.toJson]
  | .terminate => .arr [.str "terminate"]
  | .kill => .arr [.str "kill"]

namespace World

variable {σ : Type}

def requestsJson (w : World σ) (withUrls : Bool) : Json :=
  .arr (w.requests.map (Request.toJson withUrls))

def urlsJson (w : World σ) : Json := .arr (w.urls.map .str)

def sleepsJson (w : World σ) : Json := .arr (w.sleeps.map fun n => .int (Int.ofNat n))

def eventsJson (w : World σ) : Json := .arr (w.process.events.map ProcessEvent.toJson)

/-- The tree under a root: files, and directories that hold nothing. -/
def filesJson (w : World σ) (root : Place) : Json :=
  .obj (w.files.entries.filterMap fun (place, e) =>
    let rest := place.drop root.length
    if rest.isEmpty || !root.isPrefixOf place then none
    else
      let name := "/".intercalate rest
      match e with
      | .file content => some (name, content.toJson)
      | .directory => if (w.files.children place).isEmpty then some (name ++ "/", .null) else none)

/-- Everything that a run of the program did. -/
def transcript (w : World σ) : List (String × Json) :=
  [("stdout", .str (String.join (w.terminal.output.map fun line => line ++ "\n"))),
    ("reasons", .arr (w.terminal.notices.map .str)),
    ("requests", w.requestsJson true),
    ("prompts", .arr (w.terminal.prompts.map .str)),
    ("events", w.eventsJson), ("urls", w.urlsJson), ("sleeps", w.sleepsJson)]

end World

end ServerDeploy
