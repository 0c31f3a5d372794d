import Frontispiece.Markup.Parse
import Frontispiece.Scene.Method

/-!
# What can go wrong in a scene

`Fault` lists the faults of a scene itself.  `Error` adds the failure of another drawing that the
scene imports; what such a failure is depends on who provides the drawings, so its type is left
open.
-/

set_option autoImplicit false

namespace Frontispiece
namespace Scene

/-- A fault of a scene. -/
inductive Fault where
  /-- The text is no scene. -/
  | notReadable
  /-- An entry is neither a mapping of methods nor an attribute. -/
  | entry (name : String)
  /-- There is no method of that name. -/
  | unknownMethod (method node : String)
  /-- The method cannot be called on that node. -/
  | unsupportedMethod (method node : String)
  /-- The arguments do not fit the method. -/
  | invalidArguments (method message : String)
  /-- An imported drawing is no drawing. -/
  | markup (cause : Markup.ParseError)
  /-- A template imports itself, directly or through others. -/
  | importCycle (chain : List String)

/-- What is told of a text that is no scene. -/
def unreadableReport : String := "<scene report>"

/-- The text of a fault.  A text that is no scene is only named. -/
def Fault.message : Fault → String
  | .notReadable => "invalid scene configuration: " ++ unreadableReport
  | .entry name =>
    "invalid scene configuration: '" ++ name
      ++ "' must be a mapping of methods or a scalar attribute"
  | .unknownMethod method node => "unknown method '" ++ method ++ "' on " ++ node
  | .unsupportedMethod method node => "method '" ++ method ++ "' is not supported on " ++ node
  | .invalidArguments method message =>
    "invalid arguments for '" ++ method ++ "': " ++ message
  | .markup cause => "imported markup: " ++ cause.message
  | .importCycle chain => "circular import detected: " ++ " -> ".intercalate chain

/-- Why a scene is not drawn. -/
inductive Error (ε : Type) where
  /-- A fault of the scene. -/
  | fault (fault : Fault)
  /-- The drawing of that name could not be had. -/
  | importFailed (name : String) (cause : ε)

end Scene
end Frontispiece
