import Frontispiece.Files.Path

/-!
# The folders of a project

A `Layout` names the folders of a project: where templates and static files are read, where
artifacts are written, and where pages are published.  All but the root have a usual place below
the root.
-/

set_option autoImplicit false

namespace Frontispiece
namespace Project

/-- The folders of a project. -/
structure Layout where
  root : String
  templates : String
  static : String
  out : String
  dist : String
  deriving DecidableEq, Repr

namespace Layout

/-- The usual folders below a root. -/
def under (root : String) : Layout where
  root := root
  templates := Files.join root "templates"
  static := Files.join root "static"
  out := Files.join root "out"
  dist := Files.join root "dist"

/-- The folder in which the artifacts of a build are written. -/
def outFolder (l : Layout) (folder : String) : String := Files.join l.out folder

/-- The folder in which the pages of a build are published. -/
def distFolder (l : Layout) (folder : String) : String := Files.join l.dist folder

/-- The file of a template. -/
def templatePath (l : Layout) (input : String) : String := Files.join l.templates input

end Layout
end Project
end Frontispiece
