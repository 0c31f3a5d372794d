import Frontispiece.Proofs.Drawing.Still
import Frontispiece.Proofs.Scene.Frame

/-!
# Scenes without animations

A scene is drawn in the same way with and without its animations; they are taken out of the finished
document.

## What is here

* `draw_svg` — what a scene draws is a reachable document with an `svg` element as its root.
* `render_of_draw` — rendering writes the document that was drawn.
* `render_without_animations` — what is rendered without animations is what is rendered with them,
  less the elements that animate.

Two renderings of one scene are compared, with and without animations.  Both draw the same document
first, since the switch is looked at only when the drawing is done.  So the theorem is one about a
document, and the scene matters only in that its document is a reachable one with a root that is
drawn on.
-/

set_option autoImplicit false

namespace Frontispiece
namespace Scene

open Drawing (Document)

variable {σ ε : Type} {easel : Easel (StateM σ) ε} {scene : Scene} {s : σ} {doc : Document}

/-- A scene draws on the root of an empty drawing, which stays the root. -/
theorem draw_svg (h : (runFrom (draw easel scene) s).1 = .ok doc) :
    doc.Reachable ∧ doc.tag? Document.root = some "svg" := by
  have hstart := Document.ofSettings_reachable easel.settings
  have hready := drawEntries_ready easel hstart False.elim scene.entries
    (.start _ hstart.wellFormed.root_lt) False.elim s doc h
  refine ⟨hready.drawn.reachable hstart, ?_⟩
  rw [(hready.drawn.framed hstart.wellFormed).tag?_eq _ hstart.wellFormed.root_lt]
  exact tag?_root_ofSettings easel.settings

/-- Rendering writes what was drawn, as it is or without its animations. -/
theorem render_of_draw (h : (runFrom (draw easel scene) s).1 = .ok doc) (animations : Bool) :
    (runFrom (render easel animations scene) s).1
      = .ok ((if animations then doc else doc.withoutAnimations).render easel.settings.pretty) := by
  rw [render, runFrom_bind]
  generalize runFrom (draw easel scene) s = drawn at h
  obtain ⟨result, s'⟩ := drawn
  obtain rfl : result = .ok doc := h
  rfl

/-- **Without animations a scene renders as with them, less what animates.**  For a scene that can be
drawn, whatever it imports:

1. with animations the tree of its document is written, without them that of the document without
   animations;
2. the second tree is the first one without every element below the root that animates, and all that
   is in it, and with one more child of the root, a style that switches animations off; all else has
   its tag, its attributes, its text and its order;
3. the root of the second does not animate, and neither does any element below it. -/
theorem render_without_animations (easel : Easel (StateM σ) ε) (scene : Scene) (s : σ)
    (doc : Document) (hdraw : (runFrom (draw easel scene) s).1 = .ok doc) :
    (runFrom (render easel true scene) s).1
      = .ok ((doc.tree Document.root).render easel.settings.pretty) ∧
    (runFrom (render easel false scene) s).1
      = .ok ((doc.withoutAnimations.tree Document.root).render easel.settings.pretty) ∧
    doc.withoutAnimations.tree Document.root
      = ((doc.tree Document.root).without Document.animationTags).withLast
        (.element "style" [] [.text Document.stillStyle]) ∧
    ∀ id tag, id = Document.root ∨ doc.withoutAnimations.Below Document.root id →
      doc.withoutAnimations.tag? id = some tag → tag ∉ Document.animationTags := by
  obtain ⟨hreachable, hsvg⟩ := draw_svg hdraw
  refine ⟨render_of_draw hdraw true, render_of_draw hdraw false, hreachable.tree_withoutAnimations,
    fun id tag hid htag => ?_⟩
  rcases hid with rfl | hbelow
  · rw [hreachable.tag?_root_withoutAnimations, hsvg] at htag
    obtain rfl := Option.some.inj htag
    decide
  · exact hreachable.tag_notMem_of_below hbelow htag

/-- A scene that animates a group in its definitions and then itself. -/
def movingScene : Scene where
  entries := [
    ("parts", .object [("defs", .object [("defs", .null),
      ("group", .object [("group", .null), ("element", .string "animate"), ("symbol", .null)])])]),
    ("motion", .object [("element", .string "animateMotion")]), ("id", .string "top")]

/-- The group in the definitions goes on without its animation, and the style comes last. -/
theorem movingScene_render_without_animations :
    ∃ doc, (runFrom (draw sameEasel movingScene) ()).1 = .ok doc ∧
      (runFrom (render sameEasel false movingScene) ()).1
        = .ok ((doc.withoutAnimations.tree Document.root).render false) ∧
      (doc.tree Document.root).children
        = [.element "defs" [] [.element "g" [] [.element "animate" [] []],
            .element "symbol" [] []], .element "animateMotion" [] []] ∧
      (doc.withoutAnimations.tree Document.root).children
        = [.element "defs" [] [.element "g" [] [], .element "symbol" [] []],
          .element "style" [] [.text Document.stillStyle]] := by
  have hdrawn : ((runFrom (draw sameEasel movingScene) ()).1.map
      fun doc => (doc.tree Document.root).children) = .ok [.element "defs" []
        [.element "g" [] [.element "animate" [] []], .element "symbol" [] []],
          .element "animateMotion" [] []] := by rfl
  cases hdraw : (runFrom (draw sameEasel movingScene) ()).1 with
  | error e =>
    rw [hdraw] at hdrawn
    cases hdrawn
  | ok doc =>
    rw [hdraw] at hdrawn
    have hchildren : (doc.tree Document.root).children = _ := Except.ok.inj hdrawn
    obtain ⟨-, hrender, htree, -⟩ := render_without_animations sameEasel movingScene () doc hdraw
    refine ⟨doc, rfl, hrender, hchildren, ?_⟩
    rw [htree]
    cases hroot : doc.tree Document.root with
    | text content =>
      rw [hroot] at hchildren
      cases hchildren
    | element tag attrs children =>
      rw [hroot] at hchildren
      obtain rfl : children = _ := hchildren
      rfl

end Scene
end Frontispiece
