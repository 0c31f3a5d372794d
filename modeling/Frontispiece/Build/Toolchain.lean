import Frontispiece.Artifact.Markdown
import Frontispiece.Artifact.Svg
import Frontispiece.Build.Journal
import Frontispiece.Files.Tree

/-!
# The tools of a build

A `Toolchain` decides whether an artifact is valid and makes it small, and has messages about what
it finds.  The standard one has tools for drawings and for Markdown; what its tools cannot minify
stays as it is.

A `Workshop` may have other tools for every task.  It stands for tools of any kind that write no
files: they may keep a state from one task to the next, and look into the files.
-/

set_option autoImplicit false

namespace Frontispiece
namespace Build

open Project (Kind)

/-- Tools that check and minify artifacts, always in the same way. -/
structure Toolchain where
  /-- Whether an artifact is valid. -/
  validate : Kind → String → Bool × List Message
  /-- An artifact made small, or, in debug mode, readable. -/
  minify : Kind → Bool → String → String × List Message

/-- Whether an artifact is valid, with a message on why it is not. -/
def validateStandard (kind : Kind) (text : String) : Bool × List Message :=
  if kind.isSvg then
    match Artifact.validateSvg text.toList with
    | .ok () => (true, [])
    | .error fault => (false, [⟨true, "Invalid SVG: " ++ fault.message⟩])
  else
    match Artifact.markdownProblems text.toList with
    | [] => (true, [])
    | problems =>
      (false, [⟨true, "Invalid Markdown: "
        ++ Text.joined "; " (problems.map Artifact.MarkdownProblem.message)⟩])

/-- An artifact made small, with a message if it cannot be read. -/
def minifyStandard (kind : Kind) (debug : Bool) (text : String) : String × List Message :=
  if kind.isSvg then
    match Artifact.minifySvg debug text.toList with
    | .ok minified => (minified, [])
    | .error fault => (text, [⟨true, "Error while minifying SVG: " ++ fault.message⟩])
  else (String.ofList (Artifact.minifyMarkdown text.toList), [])

/-- The tools for drawings and Markdown. -/
def Toolchain.standard : Toolchain := ⟨validateStandard, minifyStandard⟩

/-- A task of the tools, with its text and the files that were there to be looked into. -/
structure Task where
  call : ToolCall
  text : String
  files : Files.FileTree

/-- Tools that may answer differently from task to task. -/
structure Workshop where
  /-- The tools after tasks, the latest first, when these files are there. -/
  toolsAfter : List Task → Files.FileTree → Toolchain

/-- A workshop with the same tools for every task. -/
def Workshop.steady (tools : Toolchain) : Workshop := ⟨fun _ _ => tools⟩

instance : Coe Toolchain Workshop := ⟨.steady⟩

/-- The tools for drawings and Markdown as a workshop. -/
def Workshop.standard : Workshop := Toolchain.standard

end Build
end Frontispiece
