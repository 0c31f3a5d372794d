import Frontispiece.Build.Session
import Frontispiece.Project.Variant

/-!
# Running a build

`Plan.run` builds the descriptors of a plan one after the other.  Each is expanded if it is a
variant, rendered, checked, and made small; then it is written to its file, or kept in memory when
it has none.  When all are built, the artifacts are published.

The first failure stops the build.  What was written before stays.
-/

set_option autoImplicit false

namespace Frontispiece
namespace Build

open Files (FileTree)
open Project (Descriptor Expansion OutputIndex Registry)

/-- Makes a folder and the folders around it. -/
def createFolders (path : String) : Building Unit := do
  let w ← get
  let (result, files) := w.files.createFolders path
  set { w with files }
  match result with
  | .ok () => pure ()
  | .error cause => throw (.createFolder path cause)

/-- Writes a file and makes the folder that it is in. -/
def writeFile (path text : String) : Building Unit := do
  match Files.parent? path with
  | some parent => createFolders parent
  | none => pure ()
  let w ← get
  match w.files.write path text.toUTF8 with
  | .ok files => set { w with files }
  | .error cause => throw (.write path cause)

namespace Plan

/-- What a descriptor renders, and whether with animations. -/
def target (index : OutputIndex) (d : Descriptor) : Building Expansion := do
  if d.kind.isVariant then
    match Project.expand (← get).templates index d with
    | .error fault => throw (.template fault)
    | .ok e => do
      debugLog (quoted d.input ++ ": variant resolved to " ++ quoted e.descriptor.input)
      pure e
  else
    debugLog (quoted d.input ++ ": directly renderable")
    pure ⟨d, true⟩

/-- The tools for a task. -/
def ask (p : Plan) (call : ToolCall) (text : String) : Building Toolchain := do
  let w ← get
  set { w with journal := w.journal.ask call, tasks := ⟨call, text, w.files⟩ :: w.tasks }
  pure (p.tools.toolsAfter w.tasks w.files)

/-- Refuses a text that the tools find invalid. -/
def validate (p : Plan) (d : Descriptor) (text : String) : Building Unit := do
  let tools ← p.ask (.validate d.kind) text
  let (valid, messages) := tools.validate d.kind text
  p.tell messages
  if !valid then throw (.invalid d.kind d.input)
  debugLog (quoted d.input ++ ": validated")

/-- A text made small, if the descriptor wants that. -/
def minify (p : Plan) (d : Descriptor) (text : String) : Building String := do
  if d.minify then
    let tools ← p.ask (.minify d.kind p.debug) text
    let (minified, messages) := tools.minify d.kind p.debug text
    p.tell messages
    debugLog (quoted d.input ++ ": minified")
    pure minified
  else pure text

/-- Writes a text to the file of a descriptor; without a file the text is the result that is kept
in memory. -/
def deliver (p : Plan) (d : Descriptor) (text : String) : Building (Option String) := do
  match d.out with
  | some name => do
    let path := Files.join (p.layout.outFolder p.folder) name
    writeFile path text
    p.tell [⟨false, d.kind.name ++ " file generated: " ++ quoted path⟩]
    debugLog (quoted d.input ++ ": written")
    pure none
  | none => do
    debugLog (quoted d.input ++ ": collected")
    pure (some text)

/-- Builds one descriptor; the answer is the result to keep in memory. -/
def process (p : Plan) (index : OutputIndex) (d : Descriptor) : Building (Option String) := do
  debugLog (quoted d.input ++ " (" ++ d.kind.name ++ "): pending")
  let ⟨target, animations⟩ ← target index d
  let text ← p.render animations target
  p.validate target text
  let text ← p.minify target text
  p.deliver target text

/-- Builds the descriptors at positions. -/
def processAll (p : Plan) (index : OutputIndex) : List Nat → Building Unit
  | [] => pure ()
  | position :: rest => do
    match (← get).templates[position]? with
    | none => pure ()
    | some d => do
      match ← p.process index d with
      | none => pure ()
      | some text => modify fun w => { w with templates := w.templates.setRendered position text }
    p.processAll index rest

/-- Publishes the artifacts of the descriptors as they were before the build. -/
def publishAll (p : Plan) : Building Unit := do
  modify fun w =>
    let published := (p.folder, p.templates) :: w.journal.published
    { w with journal := { w.journal with published } }
  let w ← get
  let (result, site) := (p.publish p.templates p.layout p.folder).run ⟨w.files, []⟩
  let journal := site.lines.foldl (fun j line => j.log .debug line) w.journal
  set { w with files := site.files, journal }
  match result with
  | .ok () => pure ()
  | .error fault => throw (.publish fault)

/-- The steps of a build, with the descriptors and their results as the answer. -/
def steps (p : Plan) : Building Registry := do
  createFolders (p.layout.outFolder p.folder)
  if p.templates.isEmpty then (log .warn "no templates to build" : Working Unit)
  p.processAll (.ofRegistry p.templates) (List.range p.templates.length)
  if !p.debug && !p.skipPages then p.publishAll
  return (← get).templates

/-- The workspace before a build. -/
def start (p : Plan) (files : FileTree) : Workspace := ⟨files, p.templates, .empty, .empty, []⟩

/-- Runs a build in a directory. -/
def run (p : Plan) (files : FileTree) : Except Failure Registry × Workspace :=
  p.steps.run.run (p.start files)

end Plan
end Build
end Frontispiece
