import Frontispiece.Build.Run
import Frontispiece.Command.Arguments
import Frontispiece.Config.Basic
import Frontispiece.Config.Report

/-!
# Running a command

`run` carries out the arguments of the program in a directory: it reads the configuration and the
statistics, runs the build, and gives the directory after it.  An `Outcome` says how this ended;
its `code`, `stdout` and `stderr` are what the program shows.
-/

set_option autoImplicit false

namespace Frontispiece
namespace Command

open Files (FileTree)
open Project (Layout)

/-- What a command depends on besides its arguments and the directory. -/
structure Environment where
  now : Calendar.Instant
  /-- The environment variables by name. -/
  lookup : String → Option String
  /-- The nonce of each pass of the compiler by its number. -/
  nonce : Nat → UInt64

/-- How a command ended. -/
inductive Outcome where
  | help
  | usage
  /-- The configuration at a path, with its text, could not be read. -/
  | config (path text : String) (cause : Config.Fault)
  /-- The statistics at a path could not be read. -/
  | stats (path : String) (cause : Stats.Fault)
  | failed (failure : Build.Failure)
  /-- So many descriptors were built. -/
  | built (count : Nat) (quiet : Bool)

namespace Outcome

/-- How the program is used. -/
def synopsis : String := "Usage: build [OPTIONS]\n"

/-- The line of an option in the help. -/
def helpLine (choice : Choice) : String :=
  let short := (choice.short?.map fun c => "-" ++ c.toString ++ ", ").getD "    "
  let name := short ++ "--" ++ choice.long ++ if choice.takesValue then " <VALUE>" else ""
  "  " ++ name ++ String.ofList (List.replicate (32 - name.length) ' ') ++ choice.purpose ++ "\n"

/-- How the program is used, with its options. -/
def manual : String :=
  synopsis ++ "\nOptions:\n" ++ "".intercalate (Choice.all.map helpLine)

/-- The code with which the program ends. -/
def code : Outcome → Nat
  | .help | .built .. => 0
  | .usage => 2
  | .config .. | .stats .. | .failed _ => 1

/-- What the program writes to its output. -/
def stdout : Outcome → String
  | .help => manual
  | .built count quiet =>
    if quiet then "" else "Build successful: " ++ toString count ++ " templates\n"
  | _ => ""

/-- What the program writes about its errors. -/
def stderr : Outcome → String
  | .usage => synopsis
  | .config path text cause => cause.report path text ++ "\n"
  | .stats path cause => "Error loading statistics '" ++ path ++ "': " ++ cause.message ++ "\n"
  | .failed failure => "Error: " ++ failure.message ++ "\n"
  | _ => ""

end Outcome

/-- The version that is built when nothing else is said. -/
def defaultVersion : String := "1.0.0"

/-- The folders that a request names. -/
def Request.layout (r : Request) : Layout :=
  let usual := Layout.under r.root
  { usual with
    templates := (r.templates.map (Files.join r.root)).getD usual.templates
    static := (r.static.map (Files.join r.root)).getD usual.static }

/-- The build of a request and a configuration. -/
def Request.plan (r : Request) (e : Environment) (config : Config) (source : Stats.Source) :
    Build.Plan where
  templates := config.templates
  version := (r.version.or config.version).getD defaultVersion
  time := r.time.getD e.now
  folder := (r.folder.or config.outputFolder).getD ""
  debug := r.debug
  skipPages := r.skipPages
  layout := r.layout
  console := if r.quiet then .silent else .logged
  tools := .standard
  provider := .ofEnvironment e.lookup source
  publish := Publish.pages
  nonce := e.nonce

/-- The source of the statistics that a request names. -/
def Request.source (r : Request) (files : FileTree) : Except Outcome Stats.Source :=
  match r.stats with
  | none => .ok .placeholder
  | some path =>
    match Stats.Snapshot.load files path with
    | .ok snapshot => .ok ⟨snapshot.fetch, false⟩
    | .error cause => .error (.stats path cause)

/-- Carries out a request. -/
def Request.run (r : Request) (e : Environment) (files : FileTree) : Outcome × FileTree :=
  let path := Files.join r.root r.config
  match Config.load files path with
  | .error cause =>
    let text := (files.readText path).toOption.getD ""
    (.config path text cause, files)
  | .ok config =>
    match r.source files with
    | .error outcome => (outcome, files)
    | .ok source =>
      let (result, after) := (r.plan e config source).run files
      match result with
      | .ok templates => (.built templates.length r.quiet, after.files)
      | .error failure => (.failed failure, after.files)

/-- Carries out the arguments of the program. -/
def run (e : Environment) (arguments : List String) (files : FileTree) : Outcome × FileTree :=
  match Request.ofArguments arguments with
  | .error .help => (.help, files)
  | .error .usage => (.usage, files)
  | .ok request => request.run e files

end Command
end Frontispiece
