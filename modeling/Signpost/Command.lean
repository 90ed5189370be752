import Signpost.Loading
import Signpost.Validator.Builtin

/-!
# The command line

`check` compiles and checks a manifest and lists its endpoints; `serve` loads settings and the
manifest that they name. Each takes one option, the path of its file.
-/
namespace Signpost

inductive Topic where
  | program
  | serve
  | check
  | help
  deriving DecidableEq, Repr

inductive Command where
  | serve (settings : String)
  | check (manifest : String)
  | help (topic : Topic)
  deriving DecidableEq, Repr

namespace Command

/-- The option of a command: its letter, its name and the path it has by default. -/
structure PathOption where
  letter : Char
  name : String
  default : String

def serveOption : PathOption := ⟨'c', "config", "router.toml"⟩

def checkOption : PathOption := ⟨'m', "manifest", "api.json"⟩

/-- What an argument is to a command with one option. -/
inductive Argument where
  | helpFlag
  /-- The option with its path. -/
  | path (path : String)
  /-- The option, with its path in the next argument. -/
  | pathNext
  /-- The mark after which there are no options. -/
  | dashes
  | unknown
  deriving DecidableEq, Repr

def classify (o : PathOption) (argument : String) : Argument :=
  match argument.toList with
  | ['-', '-'] => .dashes
  | '-' :: '-' :: name =>
    if name = o.name.toList then .pathNext
    else if name = "help".toList then .helpFlag
    else if (o.name.toList ++ ['=']).isPrefixOf name then
      .path (String.ofList (name.drop (o.name.length + 1)))
    else .unknown
  | '-' :: letter :: rest =>
    if letter = 'h' then .helpFlag
    else if letter ≠ o.letter then .unknown
    else
      match rest with
      | [] => .pathNext
      | '=' :: path | path => .path (String.ofList path)
  | _ => .unknown

/-- Whether an argument can be the path of the option before it. -/
def isPath (argument : String) : Bool :=
  argument ≠ "" && (argument = "-" || !"-".toList.isPrefixOf argument.toList)

/-- The path among the arguments of a command, or a request for help. The option may be given
once. -/
def options (o : PathOption) : (given : Option String) → List String → Option (Option String × Bool)
  | given, [] => some (given, false)
  | given, argument :: rest =>
    match classify o argument with
    | .helpFlag => some (given, true)
    | .dashes => if rest.isEmpty then some (given, false) else none
    | .unknown => none
    | .path path =>
      if given.isSome || path = "" then none else options o (some path) rest
    | .pathNext =>
      match rest with
      | path :: rest =>
        if given.isSome || !isPath path then none else options o (some path) rest
      | [] => none

/-- A command with its option. -/
def withOption (o : PathOption) (topic : Topic) (command : String → Command)
    (arguments : List String) : Option Command :=
  (options o none arguments).map fun (given, wantsHelp) =>
    if wantsHelp then .help topic else command (given.getD o.default)

/-- The topic that a request for help names. -/
def topic? : List String → Option Topic
  | [] => some .program
  | ["serve"] => some .serve
  | ["check"] => some .check
  | ["help"] => some .help
  | _ => none

/-- The command that arguments give, if they give one. -/
def parse? : List String → Option Command
  | "serve" :: rest => withOption serveOption .serve .serve rest
  | "check" :: rest => withOption checkOption .check .check rest
  | "help" :: rest => (topic? rest).map .help
  | argument :: _ =>
    match argument.toList with
    | '-' :: 'h' :: _ => some (.help .program)
    | _ => if argument = "--help" then some (.help .program) else none
  | [] => none

def helpLines : Topic → List String
  | .program => [
    "Declarative REST endpoint router",
    "",
    "Usage: manifest-router <COMMAND>",
    "",
    "Commands:",
    "  serve  Serve the manifest named in the config file",
    "  check  Compile and check a manifest, then list its endpoints",
    "  help   Print this message or the help of the given subcommand(s)",
    "",
    "Options:",
    "  -h, --help  Print help"]
  | .serve => [
    "Serve the manifest named in the config file",
    "",
    "Usage: manifest-router serve [OPTIONS]",
    "",
    "Options:",
    "  -c, --config <CONFIG>  [default: router.toml]",
    "  -h, --help             Print help"]
  | .check => [
    "Compile and check a manifest, then list its endpoints",
    "",
    "Usage: manifest-router check [OPTIONS]",
    "",
    "Options:",
    "  -m, --manifest <MANIFEST>  [default: api.json]",
    "  -h, --help                 Print help"]
  | .help => [
    "Print this message or the help of the given subcommand(s)",
    "",
    "Usage: manifest-router help [COMMAND]...",
    "",
    "Arguments:",
    "  [COMMAND]...  Print help for the subcommand(s)"]

/-- How a command ends: the exit code and what is printed, or a table to be served. -/
inductive Outcome where
  | done (code : Nat) (printed : String)
  | ready (settings : Settings) (table : RouteTable)

/-- Lines of text, each with its end. -/
def lines (ls : List String) : String := String.join (ls.map (· ++ "\n"))

/-- The endpoints of a table and their number. -/
def listing (t : RouteTable) : String :=
  lines (t.endpoints.map Endpoint.title ++ [toString t.size ++ " endpoints OK"])

variable {m : Type → Type} [Monad m]

def runCheck (read : FileReader m) (path : String) : m Outcome := do
  match ← RouteTable.load read .builtin path with
  | .error _ => return .done 1 ""
  | .ok table => return .done 0 (listing table)

def runServe (read : FileReader m) (path : String) : m Outcome := do
  match ← Settings.load read path with
  | .error _ => return .done 1 ""
  | .ok settings =>
    match ← RouteTable.load read .builtin settings.manifestPath with
    | .error _ => return .done 1 ""
    | .ok table => return .ready settings table

/-- Run the program with given arguments. -/
def run (read : FileReader m) (arguments : List String) : m Outcome :=
  match parse? arguments with
  | none => return .done 2 ""
  | some (.help topic) => return .done 0 (lines (helpLines topic))
  | some (.check path) => runCheck read path
  | some (.serve path) => runServe read path

end Command

end Signpost
