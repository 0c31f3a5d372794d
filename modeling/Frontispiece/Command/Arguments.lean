import Frontispiece.Calendar.Instant

/-!
# The arguments of the command line

The command `build` takes options.  `Request.ofArguments` reads them: an option has a long name
after two hyphens and may have a short one after one; its value is the next argument, or stands
behind an equals sign, or right behind the short name.  Short names without values can be put
together.

Anything else is refused: unknown names, an option that comes twice, a value that is missing or
that the option does not take, a value for an option that has none, and further arguments.
-/

set_option autoImplicit false

namespace Frontispiece
namespace Command

/-- The options of a build. -/
inductive Choice where
  | config
  | root
  | templates
  | static
  | version
  | time
  | folder
  | debug
  | skipPages
  | stats
  | quiet
  | help
  deriving DecidableEq, Repr

namespace Choice

/-- Every option. -/
def all : List Choice :=
  [.config, .root, .templates, .static, .version, .time, .folder, .debug, .skipPages, .stats,
    .quiet, .help]

/-- The long name. -/
def long : Choice → String
  | .config => "config"
  | .root => "root"
  | .templates => "templates-dir"
  | .static => "static-dir"
  | .version => "build-version"
  | .time => "build-time"
  | .folder => "output-folder"
  | .debug => "debug"
  | .skipPages => "skip-pages"
  | .stats => "stats"
  | .quiet => "quiet"
  | .help => "help"

/-- The short name. -/
def short? : Choice → Option Char
  | .config => some 'c'
  | .root => some 'r'
  | .folder => some 'o'
  | .debug => some 'd'
  | .quiet => some 'q'
  | .help => some 'h'
  | _ => none

/-- What the option is for. -/
def purpose : Choice → String
  | .config => "The configuration of the build, below the root"
  | .root => "The folder of the project"
  | .templates => "The folder of templates, below the root"
  | .static => "The folder of files for the templates, below the root"
  | .version => "The version that templates show"
  | .time => "The time that templates show"
  | .folder => "The folder below the folders of artifacts and pages"
  | .debug => "Use placeholder statistics, write for readers, publish nothing"
  | .skipPages => "Publish nothing"
  | .stats => "A file with statistics"
  | .quiet => "Show no messages"
  | .help => "Show this text"

/-- Whether a value belongs to the option. -/
def takesValue : Choice → Bool
  | .debug | .skipPages | .quiet | .help => false
  | _ => true

/-- Whether the option takes a value: paths are not empty, and a time is one. -/
def accepts (choice : Choice) (value : String) : Bool :=
  match choice with
  | .config | .root | .templates | .static | .stats => !value.isEmpty
  | .time => (Calendar.Instant.readLoose? value.toList).isSome
  | _ => true

/-- The option of a long name. -/
def ofLong? (name : String) : Option Choice :=
  all.find? fun choice => choice.long == name

/-- The option of a short name. -/
def ofShort? (name : Char) : Option Choice :=
  all.find? fun choice => choice.short? == some name

end Choice

/-- Why the options of a command are not read. -/
inductive Refusal where
  /-- The options ask for help. -/
  | help
  /-- They make no sense. -/
  | usage
  deriving DecidableEq, Repr

/-- The options that were given, with their values. -/
abbrev Given : Type := List (Choice × String)

namespace Given

/-- One more option. -/
def add (given : Given) (choice : Choice) (value : String) : Except Refusal Given :=
  if choice == .help then .error .help
  else if given.any (·.1 == choice) || !choice.accepts value then .error .usage
  else .ok (given ++ [(choice, value)])

/-- The value of an option. -/
def value? (given : Given) (choice : Choice) : Option String :=
  given.lookup choice

/-- Whether an option was given. -/
def has (given : Given) (choice : Choice) : Bool :=
  (given.value? choice).isSome

end Given

/-- Whether an argument can be the value of the option before it: arguments that start with a
hyphen are options. -/
def isValue (argument : String) : Bool :=
  argument == "-" || !argument.startsWith "-"

/-- What an argument says: options without values, and perhaps one with its value, or one whose
value is the next argument. -/
structure Clause where
  switches : List Choice
  valued : Option (Choice × Option String)

/-- The options in an argument with one hyphen. -/
def readShorts (switches : List Choice) : List Char → Option Clause
  | [] => some ⟨switches.reverse, none⟩
  | name :: rest =>
    match Choice.ofShort? name with
    | none => none
    | some choice =>
      if choice.takesValue then
        let value :=
          match rest with
          | [] => none
          | '=' :: value => some (String.ofList value)
          | value => some (String.ofList value)
        some ⟨switches.reverse, some (choice, value)⟩
      else readShorts (choice :: switches) rest

/-- The option in an argument with two hyphens. -/
def readLong (s : List Char) : Option Clause :=
  let name := s.takeWhile (· != '=')
  match Choice.ofLong? (String.ofList name), s.drop name.length with
  | none, _ => none
  | some choice, '=' :: value =>
    if choice.takesValue then some ⟨[], some (choice, some (String.ofList value))⟩ else none
  | some choice, _ =>
    if choice.takesValue then some ⟨[], some (choice, none)⟩ else some ⟨[choice], none⟩

/-- What an argument that starts with a hyphen says. -/
def readClause (argument : String) : Option Clause :=
  match argument.toList with
  | '-' :: '-' :: name => readLong name
  | '-' :: c :: rest => readShorts [] (c :: rest)
  | _ => none

/-- The options in arguments. -/
def readGiven (given : Given) : List String → Except Refusal Given
  | [] => .ok given
  | argument :: rest => do
    if argument == "--" then
      if rest.isEmpty then .ok given else .error .usage
    else
      match readClause argument with
      | none => .error .usage
      | some clause => do
        let given ← clause.switches.foldlM (fun given choice => given.add choice "") given
        match clause.valued, rest with
        | none, rest => readGiven given rest
        | some (choice, some value), rest => do readGiven (← given.add choice value) rest
        | some (choice, none), value :: rest =>
          if isValue value then do readGiven (← given.add choice value) rest else .error .usage
        | some (_, none), [] => .error .usage

/-- What a build is asked for. -/
structure Request where
  config : String
  root : String
  templates : Option String
  static : Option String
  version : Option String
  time : Option Calendar.Instant
  folder : Option String
  debug : Bool
  skipPages : Bool
  stats : Option String
  quiet : Bool

namespace Request

/-- The request that options make. -/
def ofGiven (given : Given) : Request where
  config := (given.value? .config).getD "build-config.json"
  root := (given.value? .root).getD "."
  templates := given.value? .templates
  static := given.value? .static
  version := given.value? .version
  time := (given.value? .time).bind fun value => Calendar.Instant.readLoose? value.toList
  folder := given.value? .folder
  debug := given.has .debug
  skipPages := given.has .skipPages
  stats := given.value? .stats
  quiet := given.has .quiet

/-- The request of the arguments of the program. -/
def ofArguments : List String → Except Refusal Request
  | [] => .error .usage
  | command :: rest =>
    if command == "build" then (readGiven [] rest).map ofGiven
    else if command == "--help" || command.startsWith "-h" then .error .help
    else if command == "help" && (rest.isEmpty || rest == ["build"] || rest == ["help"]) then
      .error .help
    else .error .usage

end Request
end Command
end Frontispiece
