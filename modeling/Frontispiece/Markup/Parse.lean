import Frontispiece.Markup.Event
import Frontispiece.Markup.Tree

/-!
# Markup trees from text

`parse` reads a text as one element with everything in it.  Parts without content are left out,
blank text may stand around the element, and nothing else may.

* `Fault` lists what can be wrong, `ParseError` adds the offset.
* `treeOf` builds the tree from events with a stack of the elements that are open; every open
  element holds its children in reverse.
* `parseSvg` also asks for an `svg` element.
-/

set_option autoImplicit false

namespace Frontispiece
namespace Markup

/-- What is wrong with a markup text. -/
inductive Fault where
  /-- A part that is no markup, or tags that do not match. -/
  | malformed
  /-- An element after the end of the first. -/
  | afterRoot
  /-- No element at all. -/
  | noRoot
  /-- Text before or after the element. -/
  | textOutside
  /-- An element without its end tag, as described in messages. -/
  | unclosed (element : String)
  /-- Another element where a drawing is expected. -/
  | notDrawing (tag : String)
  deriving DecidableEq, Repr

/-- The text of a fault; a malformed part is only named. -/
def Fault.message : Fault → String
  | .malformed => "<xml>"
  | .afterRoot => "content after the root element"
  | .noRoot => "no root element"
  | .textOutside => "text outside the root element"
  | .unclosed element => "unclosed element " ++ element
  | .notDrawing tag => "expected an <svg> root, found <" ++ tag ++ ">"

/-- A fault and its offset. -/
structure ParseError where
  position : Nat
  fault : Fault
  deriving DecidableEq, Repr

/-- The text of an error. -/
def ParseError.message (e : ParseError) : String :=
  "malformed markup at byte " ++ toString e.position ++ ": " ++ e.fault.message

/-- An element that is open, with its children so far in reverse. -/
structure OpenElement where
  tag : String
  attrs : Fields String
  before : List Tree

/-- The element as it is closed. -/
def OpenElement.close (e : OpenElement) : Tree :=
  .element e.tag e.attrs e.before.reverse

/-- The element with one more child. -/
def OpenElement.push (e : OpenElement) (child : Tree) : OpenElement :=
  { e with before := child :: e.before }

/-- The element in messages. -/
def OpenElement.describe (e : OpenElement) : String :=
  match e.attrs.get? "id" with
  | some name => "<" ++ e.tag ++ " id=\"" ++ name ++ "\">"
  | none => "<" ++ e.tag ++ ">"

/-- What has been read: the elements that are open, innermost first, and the first element when
it is closed. -/
structure Progress where
  openElements : List OpenElement
  root : Option Tree

/-- A finished element put where it belongs. -/
def Progress.place (p : Progress) (tree : Tree) : Progress :=
  match p.openElements with
  | [] => { p with root := some tree }
  | e :: outer => { p with openElements := e.push tree :: outer }

/-- What has been read after one more event. -/
def Progress.step (p : Progress) (event : Event) : Except Fault Progress :=
  match event with
  | .silent => .ok p
  | .broken => .error .malformed
  | .text content =>
    match p.openElements with
    | e :: outer => .ok { p with openElements := e.push (.text content) :: outer }
    | [] => if Text.allBlank content.toList then .ok p else .error .textOutside
  | .start tag attrs =>
    if p.openElements.isEmpty && p.root.isSome then .error .afterRoot
    else
      match attrs with
      | none => .error .malformed
      | some attrs => .ok { p with openElements := ⟨tag, attrs, []⟩ :: p.openElements }
  | .empty tag attrs =>
    if p.openElements.isEmpty && p.root.isSome then .error .afterRoot
    else
      match attrs with
      | none => .error .malformed
      | some attrs => .ok (p.place (.element tag attrs []))
  | .finish tag =>
    match p.openElements with
    | [] => .error .malformed
    | e :: outer =>
      if e.tag == tag then .ok (Progress.place { p with openElements := outer } e.close)
      else .error .malformed

/-- What has been read after a list of events. -/
def Progress.run (p : Progress) : List (Nat × Event) → Except ParseError Progress
  | [] => .ok p
  | (position, event) :: rest =>
    match p.step event with
    | .ok p => p.run rest
    | .error fault => .error ⟨position, fault⟩

/-- The element that a list of events makes, when `size` is the length of their text. -/
def treeOf (size : Nat) (events : List (Nat × Event)) : Except ParseError Tree := do
  let p ← Progress.run ⟨[], none⟩ events
  match p.openElements with
  | e :: _ => .error ⟨size, .unclosed e.describe⟩
  | [] =>
    match p.root with
    | some tree => .ok tree
    | none => .error ⟨size, .noRoot⟩

/-- The element that a text holds. -/
def parse (s : List Char) : Except ParseError Tree :=
  treeOf (Text.byteLength s) (events s)

/-- The drawing that a text holds. -/
def parseSvg (s : List Char) : Except ParseError Tree := do
  let tree ← parse s
  match tree.tag? with
  | some "svg" => .ok tree
  | other => .error ⟨0, .notDrawing (other.getD "?")⟩

end Markup
end Frontispiece
