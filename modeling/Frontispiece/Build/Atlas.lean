import Frontispiece.Build.Failure
import Frontispiece.Scene.Interpreter

/-!
# Scenes that import each other

An `Atlas` has a page under each of its names: finished markup, a scene, or the reason why there is
no drawing.  The scenes of an atlas import from the atlas again.

* `render` draws a page for a chain, and lets its scene import from a given studio.
* `layer` is the studio of an atlas whose scenes import from another, and `nested` that a number of
  times over.  No name comes twice on one chain, so that drawings nest no deeper than there are
  names, and `studio` is the studio whose scenes import from itself.
-/

set_option autoImplicit false

namespace Frontispiece
namespace Build

open Drawing (Settings)
open Scene (Easel ImportChain Studio)

/-- What an atlas has under a name. -/
inductive Page where
  | drawn (markup : String)
  | scene (scene : Scene)
  | refused (cause : Failure)

/-- Pages by name, all drawn with the same settings. -/
structure Atlas where
  pages : Fields Page
  settings : Settings

namespace Atlas

variable {m : Type → Type} [Monad m]

/-- The drawing of a page for a chain.  Its scene imports from a studio. -/
def render (a : Atlas) (studio : Studio m Failure) (animations : Bool) (name : String)
    (chain : ImportChain) : m (Except Failure String) :=
  match a.pages.get? name with
  | none => pure (.error (.template (.missingBase name)))
  | some (.drawn markup) => pure (.ok markup)
  | some (.refused cause) => pure (.error cause)
  | some (.scene scene) => do
    let easel : Easel m Failure := ⟨a.settings, some studio, chain⟩
    match ← (Scene.render easel animations scene).run with
    | .ok svg => pure (.ok svg)
    | .error e => pure (.error (.scene e))

/-- The studio of an atlas whose scenes import from `inner`; `visit` hears what it is asked for. -/
def layer (a : Atlas) (visit : String → ImportChain → m Unit) (inner : Studio m Failure) :
    Studio m Failure where
  drawing name chain := do
    visit name chain
    a.render inner true name chain
  imported := fun _ _ => pure ()

/-- The studio of an atlas, with imports nested beyond a depth left to `base`. -/
def nested (a : Atlas) (visit : String → ImportChain → m Unit) (base : Studio m Failure) :
    Nat → Studio m Failure
  | 0 => base
  | depth + 1 => a.layer visit (a.nested visit base depth)

/-- The studio that has no drawings. -/
def closed : Studio m Failure where
  drawing name _ := pure (.error (.template (.missingBase name)))
  imported := fun _ _ => pure ()

/-- The studio of an atlas. -/
def studio (a : Atlas) (visit : String → ImportChain → m Unit) : Studio m Failure :=
  a.nested visit closed (a.pages.length + 1)

end Atlas
end Build
end Frontispiece
