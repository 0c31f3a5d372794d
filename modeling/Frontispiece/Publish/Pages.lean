import Frontispiece.Markdown.Html
import Frontispiece.Project.Descriptor
import Frontispiece.Project.Layout
import Frontispiece.Publish.Fault

/-!
# Publishing pages

`pages` publishes the artifacts of a build: a Markdown artifact becomes a page of the same name
with the extension `html`, and every other artifact is copied.  The page of the read-me is the
index, too.

Publishing stops at the first fault.  The pages before it stay.
-/

set_option autoImplicit false

namespace Frontispiece
namespace Publish

open Files (FileTree)
open Project (Descriptor Layout Registry)

/-- The files while they are published, and the names published so far, latest first. -/
structure Site where
  files : FileTree
  done : List String

/-- The lines that the log gets for the names published so far, first ones first. -/
def Site.lines (site : Site) : List String :=
  site.done.reverse.map fun name => "published '" ++ name ++ "'"

/-- A step of publishing. -/
abbrev Publishing : Type → Type := ExceptT Fault (StateM Site)

/-- The artifact whose page is the index, in any letter case. -/
def indexSource : String := "ReadMe.md"

/-- Whether a name is that of the artifact whose page is the index. -/
def isIndexSource (name : String) : Bool :=
  name.toList.map Char.toLower == indexSource.toList.map Char.toLower

/-- A title as a text of HTML. -/
def escapeTitle (title : String) : String :=
  String.ofList (title.toList.flatMap Markdown.escapeTextChar)

/-- The page of a title and a body. -/
def page (title body : String) : String :=
  "<!DOCTYPE html>\n<html>\n<head>\n<meta charset=\"utf-8\">\n<title>" ++ escapeTitle title
    ++ "</title>\n</head>\n<body class=\"markdown-body\">\n" ++ body ++ "</body>\n</html>\n"

/-- The page of a Markdown artifact. -/
def pageOf (name text : String) : String :=
  page name (String.ofList (Markdown.toHtml text.toList))

/-- A fault of the files at a path as a fault of publishing. -/
def ofFiles {α : Type} (path : String) : Except Files.Fault α → Publishing α
  | .ok a => pure a
  | .error cause => throw (.files path cause)

/-- Makes a folder and the folders around it. -/
def createFolders (path : String) : Publishing Unit := do
  let site ← get
  let (result, files) := site.files.createFolders path
  set { site with files }
  ofFiles path result

/-- Makes the folder of a path. -/
def ensureParent (path : String) : Publishing Unit :=
  match Files.parent? path with
  | some parent => createFolders parent
  | none => pure ()

/-- Writes a file. -/
def write (path content : String) : Publishing Unit := do
  ensureParent path
  let files ← ofFiles path ((← get).files.write path content.toUTF8)
  modify ({ · with files })

/-- Copies a file. -/
def copy (source path : String) : Publishing Unit := do
  ensureParent path
  let files ← ofFiles path ((← get).files.copy source path)
  modify ({ · with files })

/-- Publishes the artifact of a descriptor. -/
def publishOne (out dist : String) (d : Descriptor) : Publishing Unit :=
  match d.out with
  | none => pure ()
  | some name => do
    let artifact := Files.join out name
    if !(← get).files.isFile artifact then throw (.missingArtifact artifact)
    if d.kind == .markdown then
      let text ← ofFiles artifact ((← get).files.readText artifact)
      let page := pageOf name text
      write (Files.withExtension (Files.join dist name) "html") page
      if isIndexSource name then write (Files.join dist "index.html") page
    else copy artifact (Files.join dist name)
    modify fun site => { site with done := name :: site.done }

/-- Publishes the artifacts of descriptors in order. -/
def publishAll (out dist : String) : List Descriptor → Publishing Unit
  | [] => pure ()
  | d :: rest => do
    publishOne out dist d
    publishAll out dist rest

/-- Publishes the artifacts of a build as pages. -/
def pages (templates : Registry) (layout : Layout) (folder : String) : Publishing Unit := do
  let dist := layout.distFolder folder
  createFolders dist
  publishAll (layout.outFolder folder) dist templates

end Publish
end Frontispiece
