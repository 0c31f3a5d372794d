import Frontispiece.Artifact.Css
import Frontispiece.Markup.Parse

/-!
# Checking and minifying drawings

A drawing is valid when it is markup with an `svg` element.  `minifySvg` drops blank text outside
the elements that show text, and merges all style elements into one at the end of the drawing.
With `debug` set the result is indented, and the style is only trimmed.
-/

set_option autoImplicit false

namespace Frontispiece
namespace Artifact

open Markup (Tree)

/-- The elements in which blank text shows. -/
def textTags : List String := ["text", "tspan", "textPath", "title", "desc"]

/-- Whether a drawing is valid. -/
def validateSvg (s : List Char) : Except Markup.ParseError Unit :=
  (Markup.parseSvg s).map fun _ => ()

/-- Whether a child is blank text. -/
def isBlankText : Tree → Bool
  | .text content => Text.allBlank content.toList
  | .element .. => false

mutual

/-- A tree without blank text outside the elements that show text. -/
def dropBlankText : Tree → Tree
  | .text content => .text content
  | .element tag attrs children =>
    .element tag attrs (dropBlankTexts (textTags.contains tag) children)

/-- `dropBlankText` on children, of which `shown` tells whether their blank text shows. -/
def dropBlankTexts (shown : Bool) : List Tree → List Tree
  | [] => []
  | child :: rest =>
    if !shown && isBlankText child then dropBlankTexts shown rest
    else dropBlankText child :: dropBlankTexts shown rest

end

/-- The texts directly in a list of children, one after the other. -/
def directText : List Tree → String
  | [] => ""
  | .text content :: rest => content ++ directText rest
  | .element .. :: rest => directText rest

mutual

/-- The texts of the style elements of a tree in order. -/
def styleTexts : Tree → List String
  | .text _ => []
  | .element tag _ children =>
    (if tag == "style" then [directText children] else []) ++ styleTextsOf children

/-- The texts of the style elements of children in order. -/
def styleTextsOf : List Tree → List String
  | [] => []
  | child :: rest => styleTexts child ++ styleTextsOf rest

end

mutual

/-- A tree without the style elements below it. -/
def withoutStyles : Tree → Tree
  | .text content => .text content
  | .element tag attrs children => .element tag attrs (withoutStylesOf children)

/-- Children without style elements. -/
def withoutStylesOf : List Tree → List Tree
  | [] => []
  | child :: rest =>
    if child.tag? == some "style" then withoutStylesOf rest
    else withoutStyles child :: withoutStylesOf rest

end

/-- The style elements of a drawing merged into its last child.  No element is left when they
hold nothing. -/
def mergeStyles (debug : Bool) : Tree → Tree
  | .text content => .text content
  | .element tag attrs children =>
    match styleTextsOf children with
    | [] => .element tag attrs children
    | texts =>
      let combined := Text.join ['\n'] (texts.map String.toList)
      let css := if debug then Text.trim combined else compactCss combined
      let kept := withoutStylesOf children
      .element tag attrs <|
        if css.isEmpty then kept
        else kept ++ [.element "style" [] [.text (String.ofList css)]]

/-- A drawing made small, or, with `debug`, readable. -/
def minifySvg (debug : Bool) (s : List Char) : Except Markup.ParseError String := do
  let tree ← Markup.parseSvg s
  .ok ((mergeStyles debug (dropBlankText tree)).render debug)

end Artifact
end Frontispiece
