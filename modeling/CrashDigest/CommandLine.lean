import CrashDigest.Engine
import CrashDigest.Settings.Location

/-!
# The command line

The event's directory stands alone; everything else has a name. An option takes
a value, from the same argument behind an equals sign (behind the letter, for a
short one) or else from the next argument, unless that looks like an option
itself. Two dashes alone end the options. An option or a flag that is repeated
counts once, with its last value; only the verbosity adds up.

A value is judged when the next argument that has a name, or the end, makes it
final. An argument that nobody knows is reported at once, and so wins over a
value that is still waiting.
-/

namespace CrashDigest

/-- What is wrong with a command line, or asks for something else than a run. -/
inductive UsageError where
  | missingRequired
  | invalidValue
  | unknownArgument
  | tooManyValues
  | helpWanted
  | versionWanted
  deriving DecidableEq, Repr

/-- The options with a value. -/
inductive OptionName where
  | tag
  | id
  | uptime
  | build
  | board
  | date
  | imei
  | operator
  | config
  | logsRoot
  | serial
  | strictness
  | fabricLayout
  deriving DecidableEq, Repr

/-- The options without a value. -/
inductive FlagName where
  | dataReady
  | noChown
  | json
  | verbose
  | help
  | version
  deriving DecidableEq, Repr

/-- What a name on the command line stands for. -/
inductive Switch where
  | option (name : OptionName)
  | flag (name : FlagName)
  deriving DecidableEq, Repr

namespace Switch

/-- The long names. -/
def long : List (Text × Switch) :=
  [("tag", .option .tag), ("id", .option .id), ("uptime", .option .uptime),
   ("build", .option .build), ("board", .option .board), ("date", .option .date),
   ("imei", .option .imei), ("operator", .option .operator), ("data-ready", .flag .dataReady),
   ("config", .option .config), ("logs-root", .option .logsRoot), ("serial", .option .serial),
   ("strictness", .option .strictness), ("fabric-layout", .option .fabricLayout),
   ("no-chown", .flag .noChown), ("json", .flag .json), ("verbose", .flag .verbose),
   ("help", .flag .help), ("version", .flag .version)]

/-- The short names. -/
def short : List (Char × Switch) :=
  [('t', .option .tag), ('v', .flag .verbose), ('h', .flag .help), ('V', .flag .version)]

end Switch

/-- What a command line gives; what it does not give has no value here. -/
structure Given where
  dir : Option Path
  tag : Option Text
  id : Text
  uptime : Text
  build : Text
  board : Text
  date : Text
  imei : Text
  operator : Text
  dataReady : Bool
  config : Option Path
  logsRoot : Option Path
  serial : Option Path
  strictness : Option Strictness
  fabricLayout : Option FabricLayout
  noChown : Bool
  json : Bool
  /-- How often more words were asked for, up to 255. -/
  verbosity : Nat
  deriving DecidableEq, Repr

namespace Given

/-- An empty command line. -/
def nothing : Given where
  dir := none
  tag := none
  id := []
  uptime := []
  build := []
  board := []
  date := []
  imei := []
  operator := []
  dataReady := false
  config := none
  logsRoot := none
  serial := none
  strictness := none
  fabricLayout := none
  noChown := false
  json := false
  verbosity := 0

/-- A path, which must not be empty. -/
def pathValue (value : Text) : Except UsageError Path :=
  if value = [] then .error .invalidValue else .ok value

/-- One of the choices, by its exact name. -/
def choiceValue {α : Type} (named : List (Text × α)) (value : Text) : Except UsageError α :=
  match named.lookup value with
  | some choice => .ok choice
  | none => .error .invalidValue

/-- An option with its value. -/
def setOption (g : Given) (name : OptionName) (value : Text) : Except UsageError Given :=
  match name with
  | .tag => .ok { g with tag := some value }
  | .id => .ok { g with id := value }
  | .uptime => .ok { g with uptime := value }
  | .build => .ok { g with build := value }
  | .board => .ok { g with board := value }
  | .date => .ok { g with date := value }
  | .imei => .ok { g with imei := value }
  | .operator => .ok { g with operator := value }
  | .config => (pathValue value).map fun path => { g with config := some path }
  | .logsRoot => (pathValue value).map fun path => { g with logsRoot := some path }
  | .serial => (pathValue value).map fun path => { g with serial := some path }
  | .strictness =>
      (choiceValue Strictness.named value).map fun choice => { g with strictness := some choice }
  | .fabricLayout =>
      (choiceValue FabricLayout.named value).map fun choice =>
        { g with fabricLayout := some choice }

/-- A flag. -/
def setFlag (g : Given) : FlagName → Except UsageError Given
  | .dataReady => .ok { g with dataReady := true }
  | .noChown => .ok { g with noChown := true }
  | .json => .ok { g with json := true }
  | .verbose => .ok { g with verbosity := min 255 (g.verbosity + 1) }
  | .help => .error .helpWanted
  | .version => .error .versionWanted

end Given

namespace CommandLine

/-- What is still to be judged. -/
inductive Waiting where
  | nothing
  /-- An option whose value has not come. -/
  | option (name : OptionName)
  /-- An option with its value. -/
  | value (name : OptionName) (value : Text)
  /-- The directory. -/
  | directory (value : Text)
  deriving DecidableEq, Repr

/-- The command line up to an argument. -/
structure Reading where
  given : Given
  waiting : Waiting
  /-- Whether the directory has come. -/
  hasDirectory : Bool
  /-- Whether the options have ended. -/
  optionsEnded : Bool
  deriving DecidableEq, Repr

namespace Reading

/-- Nothing read yet. -/
def initial : Reading := ⟨.nothing, .nothing, false, false⟩

/-- Judge what is waiting. -/
def settle (r : Reading) : Except UsageError Reading :=
  let settled (given : Given) : Reading := { r with given, waiting := .nothing }
  match r.waiting with
  | .nothing => .ok r
  | .option _ => .error .invalidValue
  | .value name value => (r.given.setOption name value).map settled
  | .directory value =>
      (Given.pathValue value).map fun dir => settled { r.given with dir := some dir }

/-- A flag. -/
def flag (r : Reading) (name : FlagName) : Except UsageError Reading := do
  let r ← r.settle
  let given ← r.given.setFlag name
  pure { r with given }

/-- An option with a value in the same argument, or one that waits for it. -/
def option (r : Reading) (name : OptionName) (attached : Option Text) :
    Except UsageError Reading := do
  let r ← r.settle
  match attached with
  | some value =>
      let given ← r.given.setOption name value
      pure { r with given }
  | none => pure { r with waiting := .option name }

/-- An argument behind two dashes. -/
def longArgument (r : Reading) (body : Text) : Except UsageError Reading :=
  let (name, attached) := match body.cut "=" with
    | some (name, value) => (name, some value)
    | none => (body, none)
  match Switch.long.lookup name, attached with
  | none, _ => .error .unknownArgument
  | some (.option name), attached => r.option name attached
  | some (.flag _), some _ => .error .tooManyValues
  | some (.flag name), none => r.flag name

/-- Letters behind one dash. The letter of an option takes the rest as its value. -/
def shortArgument (r : Reading) : Text → Except UsageError Reading
  | [] => .ok r
  | c :: rest =>
      match Switch.short.lookup c with
      | none => .error .unknownArgument
      | some (.flag name) =>
          match r.flag name with
          | .ok r => shortArgument r rest
          | .error e => .error e
      | some (.option name) =>
          match rest with
          | [] => r.option name none
          | '=' :: value => r.option name (some value)
          | value => r.option name (some value)

/-- An argument that is no option: the value that is waited for, or the directory. -/
def plainArgument (r : Reading) (argument : Text) : Except UsageError Reading :=
  match r.waiting, r.optionsEnded with
  | .option name, false => .ok { r with waiting := .value name argument }
  | _, _ =>
      if r.hasDirectory then .error .unknownArgument
      else r.settle.map fun r => { r with waiting := .directory argument, hasDirectory := true }

/-- One argument. -/
def step (r : Reading) (argument : Text) : Except UsageError Reading :=
  if r.optionsEnded then r.plainArgument argument
  else
    match argument with
    | ['-', '-'] => .ok { r with optionsEnded := true }
    | '-' :: '-' :: body => r.longArgument body
    | '-' :: c :: rest => r.shortArgument (c :: rest)
    | _ => r.plainArgument argument

end Reading

/-- A command line that asks for a run. -/
structure Invocation where
  request : Request
  config : Option Path
  logsRoot : Option Path
  serial : Option Path
  strictness : Option Strictness
  fabricLayout : Option FabricLayout
  noChown : Bool
  json : Bool
  verbosity : Nat
  deriving DecidableEq, Repr

/-- The run that is asked for; the directory and the tag must be there. -/
def Invocation.ofGiven (g : Given) : Except UsageError Invocation :=
  match g.dir, g.tag with
  | some dir, some tag =>
      .ok
        { request :=
            { dir, tag, id := g.id, uptime := g.uptime, build := g.build, board := g.board
              date := g.date, imei := g.imei, operator := g.operator, dataReady := g.dataReady }
          config := g.config, logsRoot := g.logsRoot, serial := g.serial
          strictness := g.strictness, fabricLayout := g.fabricLayout, noChown := g.noChown
          json := g.json, verbosity := g.verbosity }
  | _, _ => .error .missingRequired

/-- The run that the arguments ask for. -/
def parse (arguments : List Text) : Except UsageError Invocation := do
  let r ← arguments.foldlM Reading.step .initial
  let r ← r.settle
  Invocation.ofGiven r.given

/-- How much is said about a run while it goes on. -/
inductive LogLevel where
  | warn
  | info
  | debug
  | trace
  deriving DecidableEq, Repr

/-- The level's name. -/
def LogLevel.name : LogLevel → Text
  | .warn => "warn"
  | .info => "info"
  | .debug => "debug"
  | .trace => "trace"

/-- The level for how often more words were asked for. -/
def LogLevel.ofVerbosity : Nat → LogLevel
  | 0 => .warn
  | 1 => .info
  | 2 => .debug
  | _ => .trace

namespace Invocation

/-- The settings with those of the command line laid over them. -/
def override (i : Invocation) (s : Settings) : Settings :=
  let s := match i.logsRoot with
    | some root => s.withRoot root
    | none => s
  { s with
    serialPath := i.serial.getD s.serialPath
    strictness := i.strictness.getD s.strictness
    fabricLayout := i.fabricLayout.getD s.fabricLayout
    owner := if i.noChown then none else s.owner }

/-- The settings of the run: the defaults and the environment, under the settings file, under
the command line. -/
def settings [Dialect] (i : Invocation) (env : Environment) (files : FileTree) :
    Except ConfigError Settings :=
  match SettingsFile.load env files i.config with
  | .error e => .error e
  | .ok file =>
      match file.apply env.settings with
      | .error e => .error (.skipPattern e.text)
      | .ok s => .ok (i.override s)

end Invocation

end CommandLine

end CrashDigest
