import Frontispiece.Build.Atlas
import Frontispiece.Scene.Read

/-!
# A gallery of drawings

A `Gallery` provides drawings by name, each as markup or as the text of a scene.  Its scenes are the
pages of an atlas, and import from it.

`Gallery.studio` also keeps the chains with which drawings were asked for, in order.
-/

set_option autoImplicit false

namespace Frontispiece
namespace Build

open Scene (Studio ImportChain)

/-- A drawing of a gallery. -/
inductive Exhibit where
  | markup (text : String)
  | scene (text : String)

/-- The page of a drawing. -/
def Exhibit.page : Exhibit → Page
  | .markup text => .drawn text
  | .scene text =>
    match Scene.read text with
    | .error fault => .refused (.scene (.fault fault))
    | .ok read => .scene read

/-- Drawings by name. -/
structure Gallery where
  exhibits : Fields Exhibit

namespace Gallery

/-- The chains with which drawings were asked for, latest first. -/
abbrev Visits : Type := List ImportChain

/-- The drawings of a gallery as an atlas. -/
def atlas (g : Gallery) : Atlas where
  pages := g.exhibits.map fun (name, exhibit) => (name, exhibit.page)
  settings := {}

/-- The drawings of a gallery. -/
def studio (g : Gallery) : Studio (StateM Visits) Failure :=
  g.atlas.studio fun _ chain => modify (chain :: ·)

end Gallery
end Build
end Frontispiece
