import Frontispiece.Files.Tree

/-!
# Why pages are not published
-/

set_option autoImplicit false

namespace Frontispiece
namespace Publish

/-- Why pages are not published. -/
inductive Fault where
  /-- There is no artifact at a path. -/
  | missingArtifact (path : String)
  /-- A file or folder at a path could not be read or written. -/
  | files (path : String) (cause : Files.Fault)
  deriving DecidableEq, Repr

/-- The text of a fault. -/
def Fault.message : Fault → String
  | .missingArtifact path => "artifact not found: '" ++ path ++ "'"
  | .files path cause => "failed to publish '" ++ path ++ "': " ++ cause.message

end Publish
end Frontispiece
