import ServerDeploy.Settings.Number
import ServerDeploy.World.FileAccess

/-! Where log lines go: the console, a log file with a limit on its size, and a second file for timing
lines. -/

namespace ServerDeploy

namespace Log

/-- What a level name stands for. One of the names stands for the layout of a line, which is no
level. -/
inductive Level where
  | number (n : Int)
  | layout (text : String)
  deriving DecidableEq, Repr, Inhabited

def debugLevel : Int := 10

def infoLevel : Int := 20

def levels : List (String × Level) :=
  [("NOTSET", .number 0), ("DEBUG", .number debugLevel), ("INFO", .number infoLevel),
    ("WARN", .number 30), ("WARNING", .number 30), ("ERROR", .number 40), ("CRITICAL", .number 50),
    ("FATAL", .number 50), ("BASIC_FORMAT", .layout "%(levelname)s:%(name)s:%(message)s")]

/-- Upper case for the characters that level names are made of; two letters outside ASCII have an
ASCII capital. -/
def capital (c : Char) : Char :=
  if c == 'ı' then 'I' else if c == 'ſ' then 'S' else c.toUpper

/-- The level of the console: by name from the environment, and informative for unknown names. -/
def levelOf (setting? : String → Option String) : Level :=
  let name := ((setting? "JBOSS_DEPLOY_LOG_LEVEL").getD "INFO").map capital
  match levels.find? fun (known, _) => known == name with
  | some (_, level) => level
  | none => .number infoLevel

/-- The log file: named by the environment, else in the home directory. -/
def fileOf (home : Path) (setting? : String → Option String) : Path :=
  match setting? "JBOSS_DEPLOY_LOG_FILE" with
  | some s => .ofText s
  | none => (home.child ".jboss-deploy").child "jboss-deploy.log"

inductive Handler where
  | console (level : Int)
  | file (place : Path) (maxBytes backups : Int)
  /-- Lines are dropped. -/
  | silent
  deriving DecidableEq, Repr, Inhabited

/-- The handlers of ordinary lines and of timing lines. -/
structure Setup where
  main : List Handler
  timing : List Handler
  deriving Repr, Inhabited

def settable : Level → Except Fault Int
  | .number n => .ok n
  | .layout s => .error (.value ("Unknown level: " ++ quoted s))

/-- The limits on log files: size in bytes, given in mebibytes, and number of older files kept. -/
def limits (setting? : String → Option String) : Except Fault (Int × Int) := do
  let size ← Settings.integerOf ((setting? "JBOSS_DEPLOY_LOG_MAX_SIZE").getD "10")
  let backups ← Settings.integerOf ((setting? "JBOSS_DEPLOY_LOG_BACKUPS").getD "5")
  pure (size * 1024 * 1024, backups)

variable {σ : Type}

/-- Opens a file for more lines; it is made if it is not there. Gives its place. -/
def openFile (p : Path) : Run σ Path := do
  let place : Path := ⟨"/", Path.place (← get).directory p⟩
  match ← Run.findEntry place with
  | .ok (_, .file _) => pure ()
  | .ok (_, .directory) => throw (.system (.file .isDirectory))
  | .error _ => Run.writeContent place (.text "")
  pure place

/-- Sets logging up. A level that was chosen goes before that of the environment. -/
def setUp (level : Option Int) (toFile : Bool) : Run σ Setup := do
  let w ← get
  let chosen := match level with
    | some n => .number n
    | none => levelOf w.setting?
  let console ← Run.ofExcept (settable chosen)
  if !toFile then pure ⟨[.console console], [.silent]⟩
  else do
    let (maxBytes, backups) ← Run.ofExcept (limits w.setting?)
    let file := fileOf w.home w.setting?
    Run.makeDirectories file.parent
    let main ← openFile file
    let timing ← openFile (file.parent.child "jboss-deploy-perf.log")
    pure ⟨[.console console, .file main maxBytes backups], [.file timing maxBytes backups]⟩

end Log

end ServerDeploy
