import ServerDeploy.Settings.Number
import ServerDeploy.Text.Split

/-! Reading argument lists. Long options may be shortened as long as they stay unambiguous and take
their value after an equals sign or from the next argument; a double hyphen ends the options. What
cannot be read is refused with an exit code of two. -/

namespace ServerDeploy

namespace CommandLine

inductive OptionKind where
  /-- No value; asks for help, which ends the run. -/
  | help
  | flag
  | text
  | integer
  | decimal
  deriving DecidableEq, Repr

/-- An option: how it is spelled, the key it is known by, and what it takes. -/
structure OptionSpec where
  spelling : String
  key : String
  kind : OptionKind
  deriving DecidableEq, Repr

namespace OptionSpec

def named (spelling : String) (kind : OptionKind) : OptionSpec := ⟨spelling, spelling, kind⟩

def takesValue (o : OptionSpec) : Bool :=
  match o.kind with
  | .help | .flag => false
  | .text | .integer | .decimal => true

/-- Options of one letter follow a single hyphen and may be written behind one another. -/
def isLong (o : OptionSpec) : Bool := o.spelling.startsWith "--"

end OptionSpec

inductive OptionValue where
  | on
  | text (s : String)
  | integer (n : Int)
  | decimal (x : Binary64)
  deriving Repr, Inhabited

/-- How many arguments that are no options there must be. -/
inductive Positionals where
  | nothing
  | single
  | several
  deriving DecidableEq, Repr

/-- What may be written after the name of a goal. -/
structure Grammar where
  options : List OptionSpec
  positionals : Positionals
  deriving Repr

/-- A value written together with its option, after an equals sign or directly. -/
structure Attached where
  text : List Char
  byEquals : Bool
  deriving DecidableEq, Repr

inductive Token where
  | plain (s : String)
  /-- The double hyphen that ends the options. -/
  | dashes
  | option (o : OptionSpec) (attached : Option Attached)
  | unknown
  deriving Repr

/-- The exit code for arguments that cannot be read. -/
def refusal : Fault := .usage 2

namespace Grammar

def find? (g : Grammar) (spelling : List Char) : Option OptionSpec :=
  g.options.find? fun o => o.spelling.toList == spelling

/-- The options a shortened text may stand for, with the value attached to it. -/
def candidates (g : Grammar) (cs : List Char) : List Token :=
  match cs with
  | '-' :: '-' :: _ =>
    let (short, value) := cutAtChar '=' cs
    let attached := value.map fun v => ⟨v, true⟩
    (g.options.filter fun o => short.isPrefixOf o.spelling.toList).map fun o => .option o attached
  | '-' :: c :: rest =>
    g.options.filterMap fun o =>
      if o.spelling.toList == ['-', c] then some (.option o (some ⟨rest, false⟩))
      else if cs.isPrefixOf o.spelling.toList then some (.option o none)
      else none
  | _ => []

/-- Whether digits with at most one point between them follow a hyphen. -/
def isNegativeNumber (cs : List Char) : Bool :=
  match cs with
  | '-' :: rest =>
    let rest := if rest.getLast? == some '\n' then rest.dropLast else rest
    match cutAtChar '.' rest with
    | (whole, none) => !whole.isEmpty && whole.all isDecimalDigit
    | (whole, some places) =>
      whole.all isDecimalDigit && !places.isEmpty && places.all isDecimalDigit
  | _ => false

/-- What an argument is that begins with a hyphen and has more than one character. -/
def hyphenToken (g : Grammar) (s : String) : Except Fault Token :=
  let cs := s.toList
  let (short, value) := cutAtChar '=' cs
  match g.find? cs, value.bind fun v => (g.find? short).map fun o => (o, v) with
  | some o, _ => .ok (.option o none)
  | none, some (o, v) => .ok (.option o (some ⟨v, true⟩))
  | none, none =>
    match g.candidates cs with
    | [token] => .ok token
    | _ :: _ :: _ => .error refusal
    | [] => .ok (if isNegativeNumber cs || cs.contains ' ' then .plain s else .unknown)

def token (g : Grammar) (s : String) : Except Fault Token :=
  match s.toList with
  | '-' :: _ :: _ => if s == "--" then .ok .dashes else g.hyphenToken s
  | _ => .ok (.plain s)

/-- What the arguments are; nothing is an option after a double hyphen. -/
def tokens (g : Grammar) : List String → Except Fault (List Token)
  | [] => .ok []
  | s :: rest => do
    match ← g.token s with
    | .dashes => pure (.dashes :: rest.map .plain)
    | t => do
      let ts ← g.tokens rest
      pure (t :: ts)

end Grammar

/-- What a group of letters with one hyphen says, option by option. -/
inductive Reading where
  | flag (o : OptionSpec)
  | valued (o : OptionSpec) (s : String)
  /-- The value is the next argument. -/
  | awaiting (o : OptionSpec)
  | unknown
  deriving Repr

def attachedRest : List Char → Option Attached
  | [] => none
  | '=' :: rest => some ⟨rest, true⟩
  | rest => some ⟨rest, false⟩

/-- What an option with its attached value says. A flag may only have other flags attached, after a
single hyphen. The first argument bounds their number. -/
def readings (g : Grammar) : Nat → OptionSpec → Option Attached → Except Fault (List Reading)
  | 0, _, _ => .error refusal
  | _ + 1, o, none => .ok [if o.takesValue then .awaiting o else .flag o]
  | fuel + 1, o, some attached =>
    if o.takesValue then .ok [.valued o (String.ofList attached.text)]
    else if o.isLong || attached.byEquals then .error refusal
    else match attached.text with
      | [] => .error refusal
      | '-' :: _ => .error refusal
      | c :: rest =>
        match g.find? ['-', c] with
        | some next => do
          let others ← readings g fuel next (attachedRest rest)
          pure (.flag o :: others)
        | none => .ok [.flag o, .unknown]

/-- What was given: options in order, the other arguments, and whether something was left over. -/
structure Given where
  options : List (String × OptionValue)
  positionals : Option (List String)
  hasStray : Bool
  deriving Repr, Inhabited

namespace Given

def empty : Given := ⟨[], none, false⟩

def push (given : Given) (key : String) (v : OptionValue) : Given :=
  { given with options := given.options ++ [(key, v)] }

/-- Takes an option without a value; help ends the run. -/
def takeFlag (given : Given) (o : OptionSpec) : Except Fault Given :=
  if o.kind = .help then .error (.usage 0) else .ok (given.push o.key .on)

def takeValue (given : Given) (o : OptionSpec) (s : String) : Except Fault Given :=
  match o.kind with
  | .integer =>
    match Settings.integerOf s with
    | .ok n => .ok (given.push o.key (.integer n))
    | .error _ => .error refusal
  | .decimal =>
    match Settings.decimalOf s with
    | .ok x => .ok (given.push o.key (.decimal x))
    | .error _ => .error refusal
  | _ => .ok (given.push o.key (.text s))

/-- Takes what options say, in order. A value that is awaited is the next argument, if that is no
option; the arguments after it are given back. -/
def takeReadings (given : Given) : List Reading → List Token → Except Fault (Given × List Token)
  | [], rest => .ok (given, rest)
  | .flag o :: more, rest => do
    let given ← given.takeFlag o
    takeReadings given more rest
  | .valued o s :: more, rest => do
    let given ← given.takeValue o s
    takeReadings given more rest
  | .unknown :: more, rest => takeReadings { given with hasStray := true } more rest
  | .awaiting o :: more, rest =>
    match rest with
    | .plain s :: rest => do
      let given ← given.takeValue o s
      takeReadings given more rest
    | _ => .error refusal

def isPlain : Token → Bool
  | .plain _ | .dashes => true
  | .option _ _ | .unknown => false

def plainText? : Token → Option String
  | .plain s => some s
  | _ => none

/-- The positional arguments at the head of a run of plain ones, and what is left of the run. -/
def takePositionals (p : Positionals) (run : List Token) : Option (List String × List Token) :=
  match p, run with
  | .single, .plain s :: .dashes :: rest => some ([s], rest)
  | .single, .plain s :: rest => some ([s], rest)
  | .single, .dashes :: .plain s :: rest => some ([s], rest)
  | .several, run =>
    let texts := run.filterMap plainText?
    if texts.isEmpty then none else some (texts, [])
  | _, _ => none

/-- Takes a run of plain arguments. Positional arguments are taken once and together. -/
def takeRun (given : Given) (p : Positionals) (run : List Token) : Given :=
  match given.positionals, takePositionals p run with
  | none, some (texts, rest) =>
    { given with positionals := some texts, hasStray := given.hasStray || !rest.isEmpty }
  | _, _ => { given with hasStray := true }

/-- Takes all arguments. The first argument bounds their number. -/
def takeAll (g : Grammar) : Nat → Given → List Token → Except Fault Given
  | 0, given, _ => .ok given
  | fuel + 1, given, tokens =>
    match tokens with
    | [] => .ok given
    | .option o attached :: rest => do
      let size := (attached.map fun a => a.text.length).getD 0
      let said ← readings g (size + 1) o attached
      let (given, rest) ← given.takeReadings said rest
      takeAll g fuel given rest
    | .unknown :: rest => takeAll g fuel { given with hasStray := true } rest
    | tokens =>
      let given := given.takeRun g.positionals (tokens.takeWhile isPlain)
      takeAll g fuel given (tokens.dropWhile isPlain)

def last? (given : Given) (key : String) : Option OptionValue :=
  (given.options.reverse.find? fun (k, _) => k == key).map (·.2)

def text? (given : Given) (key : String) : Option String :=
  match given.last? key with
  | some (.text s) => some s
  | _ => none

def integer? (given : Given) (key : String) : Option Int :=
  match given.last? key with
  | some (.integer n) => some n
  | _ => none

def decimal? (given : Given) (key : String) : Option Binary64 :=
  match given.last? key with
  | some (.decimal x) => some x
  | _ => none

def texts (given : Given) (key : String) : List String :=
  given.options.filterMap fun (k, v) =>
    match v with
    | .text s => if k == key then some s else none
    | _ => none

def has (given : Given) (key : String) : Bool := (given.last? key).isSome

/-- A choice that one option makes and another takes back; the last one counts. -/
def choice (given : Given) (on off : String) (fallback : Bool) : Bool :=
  match given.options.reverse.find? fun (k, _) => k == on || k == off with
  | some (k, _) => k == on
  | none => fallback

end Given

def Grammar.read (g : Grammar) (arguments : List String) : Except Fault Given := do
  let tokens ← g.tokens arguments
  let given ← Given.takeAll g (tokens.length + 1) .empty tokens
  match g.positionals, given.positionals with
  | .single, none | .several, none => throw refusal
  | _, _ => pure given

end CommandLine

end ServerDeploy
