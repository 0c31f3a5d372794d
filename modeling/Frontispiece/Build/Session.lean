import Frontispiece.Build.Failure
import Frontispiece.Build.Toolchain
import Frontispiece.Publish.Pages
import Frontispiece.Scene.Read
import Frontispiece.Template.Compile

/-!
# Rendering in a build

A `Plan` holds the settings of a build, and a `Workspace` what changes while it runs: the files, the
descriptors with the results kept in memory, the desk of the compiler, what the tools have done, and
the journal.

`Plan.render` renders the template of a descriptor.  A scene imports the results that are kept in
memory, and renders the templates of all other names; those import in turn.  No name comes twice
on a chain of imports, and no chain is followed beyond `importDepth`.
-/

set_option autoImplicit false

namespace Frontispiece
namespace Build

open Files (FileTree)
open Project (Descriptor Layout Registry)
open Scene (Easel ImportChain Studio)

/-- The settings of a build. -/
structure Plan where
  templates : Registry
  version : String
  time : Calendar.Instant
  /-- The folder below the folders of artifacts and pages. -/
  folder : String
  debug : Bool
  skipPages : Bool
  layout : Layout
  console : Console
  tools : Workshop
  provider : Stats.Provider
  publish : Registry → Layout → String → Publish.Publishing Unit
  /-- The nonce of each pass of the compiler by its number. -/
  nonce : Nat → UInt64

/-- What changes while a build runs. -/
structure Workspace where
  files : FileTree
  templates : Registry
  desk : Template.Desk
  journal : Journal
  /-- The tasks that the tools have done, latest first. -/
  tasks : List Task

/-- A step that cannot fail. -/
abbrev Working : Type → Type := StateM Workspace

/-- A step of a build. -/
abbrev Building : Type → Type := ExceptT Failure Working

/-- One more line of the log. -/
def log (level : Level) (text : String) : Working Unit :=
  modify fun w => { w with journal := w.journal.log level text }

/-- One more line of the log for those who look for faults. -/
def debugLog (text : String) : Building Unit :=
  (log .debug text : Working Unit)

/-- A text between quotes. -/
def quoted (text : String) : String := "'" ++ text ++ "'"

/-- How long a chain of imports is followed. -/
def importDepth : Nat := 1000

namespace Plan

/-- The settings of the compiler. -/
def compiler (p : Plan) : Template.Compiler where
  version := p.version
  time := p.time
  static := p.layout.static
  provider := { p.provider with debug := p.provider.debug || p.debug }
  nonce := p.nonce

/-- Sends messages to the console. -/
def tell (p : Plan) (messages : List Message) : Building Unit :=
  modify fun w => { w with journal := w.journal.tellAll p.console messages }

/-- Compiles a template, and moves what the compiler logged into the journal. -/
def compile (p : Plan) (source : String) (data : Json) : Building String := do
  let w ← get
  let (result, desk) := Template.compile p.compiler w.files source data w.desk
  let journal := desk.log.reverse.foldl (fun j line => j.log .debug line) w.journal
  set { w with desk := { desk with log := [] }, journal }
  match result with
  | .ok text => pure text
  | .error fault => throw (.compile fault)

/-- The text of the template of a descriptor. -/
def source (p : Plan) (d : Descriptor) : Building String := do
  let path := p.layout.templatePath d.input
  match (← get).files.readText path with
  | .ok text => pure text
  | .error cause => throw (.readTemplate path cause)

/-- The drawings of a build: the results kept in memory, and whatever `render` makes of the other
names.  A name without a descriptor is a drawing with the data of the scene that imports it. -/
def studio (data : Json)
    (render : Descriptor → ImportChain → Working (Except Failure String)) :
    Studio Working Failure where
  drawing name chain := do
    match (← get).templates.importable? name with
    | none => render { input := name, out := none, kind := .svg, data } chain
    | some d =>
      match d.rendered with
      | none => render d chain
      | some markup => do
        log .debug (quoted name ++ ": reusing collected result")
        pure (.ok markup)
  imported name node := log .debug ("imported " ++ quoted name ++ " into " ++ node)

/-- The drawing of a scene. -/
def drawing (p : Plan) (studio : Studio Working Failure) (animations : Bool) (chain : ImportChain)
    (text : String) : Building String := do
  match Scene.read text with
  | .error fault => do
    p.tell [⟨true, Scene.unreadableReport⟩]
    throw (.scene (.fault fault))
  | .ok scene =>
    let easel : Easel Working Failure := ⟨{ pretty := p.debug }, some studio, chain⟩
    (Scene.render easel animations scene).adapt .scene

/-- What the template of a descriptor renders to, when chains of imports are followed no further
than the fuel. -/
def renderWithin (p : Plan) : Nat → Bool → Descriptor → ImportChain → Building String
  | 0, _, _, chain => throw (.scene (.fault (.importCycle chain.names)))
  | depth + 1, animations, d, chain => do
    let source ← p.source d
    let text ← p.compile source d.data
    debugLog (quoted d.input ++ ": compiled")
    match d.kind with
    | .markdown => pure text
    | .svg =>
      let studio := studio d.data fun d chain => (p.renderWithin depth true d chain).run
      p.drawing studio animations chain text
    | kind => throw (.template (.notRenderable kind))

/-- What the template of a descriptor renders to. -/
def render (p : Plan) (animations : Bool) (d : Descriptor) : Building String :=
  p.renderWithin importDepth animations d (.startingAt d.input)

end Plan
end Build
end Frontispiece
