import Frontispiece.Config.Fault
import Frontispiece.Project.Descriptor
import Frontispiece.Publish.Fault
import Frontispiece.Scene.Fault
import Frontispiece.Template.Fault

/-!
# Why a build stops

`Failure` gathers the faults of all stages of a build.  The failure of a scene may hold the failure
of a drawing that it imports, to any depth.
-/

set_option autoImplicit false

namespace Frontispiece
namespace Build

/-- Why a build stops. -/
inductive Failure where
  | template (cause : Project.Fault)
  | compile (cause : Template.Fault)
  | scene (cause : Scene.Error Failure)
  | stats (cause : Stats.Fault)
  | config (cause : Config.Fault)
  | publish (cause : Publish.Fault)
  | readTemplate (path : String) (cause : Files.Fault)
  | write (path : String) (cause : Files.Fault)
  | createFolder (path : String) (cause : Files.Fault)
  /-- The tools refuse an artifact. -/
  | invalid (kind : Project.Kind) (input : String)

mutual

/-- The text of a failure. -/
def Failure.message : Failure → String
  | .template cause => cause.message
  | .compile cause => "compile error: " ++ cause.message
  | .scene cause => "scene error: " ++ Failure.sceneMessage cause
  | .stats cause => cause.message
  | .config cause => cause.message
  | .publish cause => "publish error: " ++ cause.message
  | .readTemplate path cause => "failed to read template '" ++ path ++ "': " ++ cause.message
  | .write path cause => "failed to write '" ++ path ++ "': " ++ cause.message
  | .createFolder path cause =>
    "failed to create directory '" ++ path ++ "': " ++ cause.message
  | .invalid kind input => "Invalid " ++ kind.name ++ " template: '" ++ input ++ "'"

/-- The text of the failure of a scene. -/
def Failure.sceneMessage : Scene.Error Failure → String
  | .fault fault => fault.message
  | .importFailed name cause => "import of '" ++ name ++ "' failed: " ++ cause.message

end

end Build
end Frontispiece
