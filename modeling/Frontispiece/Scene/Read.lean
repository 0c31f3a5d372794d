import Frontispiece.Scene.Interpreter
import Frontispiece.Yaml.Data

/-!
# Reading a scene

A scene is written as a mapping.  A blank text is the scene without entries.
-/

set_option autoImplicit false

namespace Frontispiece
namespace Scene

/-- The scene of a text. -/
def read (text : String) : Except Fault Scene :=
  if Text.allBlank text.toList then .ok ⟨[]⟩
  else
    match Yaml.readMapping? text.toList with
    | some entries => .ok ⟨entries⟩
    | none => .error .notReadable

end Scene
end Frontispiece
