import Frontispiece.Json.Basic
import Frontispiece.Text.Split

/-!
# Markup trees and their written form

A `Tree` is an element with ordered attributes and children, or a piece of text.  `Tree.chars`
writes it: an element without children closes itself, attribute values escape the five special
characters, and text escapes only the two that would start markup.

Pretty printing puts each child on a line of its own when all children are elements; with any
text among them the children stay where they are, because spaces would become part of the text.

`Tree.render` takes time in the length of what it writes; `Tree.render_eq` says that it writes
`Tree.chars`.
-/

set_option autoImplicit false

namespace Frontispiece
namespace Markup

/-- A piece of markup. -/
inductive Tree where
  | text (content : String)
  | element (tag : String) (attrs : Fields String) (children : List Tree)
  deriving Inhabited

/-- A character of an attribute value. -/
def escapeAttrChar (c : Char) : List Char :=
  if c == '&' then "&amp;".toList
  else if c == '<' then "&lt;".toList
  else if c == '>' then "&gt;".toList
  else if c == '"' then "&quot;".toList
  else if c == '\'' then "&apos;".toList
  else [c]

/-- A character of text. -/
def escapeTextChar (c : Char) : List Char :=
  if c == '&' then "&amp;".toList
  else if c == '<' then "&lt;".toList
  else [c]

/-- An attribute value as written between quotes. -/
def escapeAttr (s : List Char) : List Char :=
  s.flatMap escapeAttrChar

/-- Text as written between tags. -/
def escapeText (s : List Char) : List Char :=
  s.flatMap escapeTextChar

/-- Attributes as written in a start tag. -/
def attrChars (attrs : Fields String) : List Char :=
  attrs.flatMap fun (name, value) =>
    ' ' :: name.toList ++ '=' :: '"' :: escapeAttr value.toList ++ ['"']

/-- A line end and the indentation of a depth. -/
def indentation (depth : Nat) : List Char :=
  '\n' :: Text.copies depth [' ', ' ']

namespace Tree

/-- Whether a tree is an element. -/
def isElement : Tree → Bool
  | .element .. => true
  | .text _ => false

/-- The tag of an element. -/
def tag? : Tree → Option String
  | .element tag _ _ => some tag
  | .text _ => none

/-- The children of an element. -/
def children : Tree → List Tree
  | .element _ _ children => children
  | .text _ => []

/-- The attributes of an element. -/
def attrs : Tree → Fields String
  | .element _ attrs _ => attrs
  | .text _ => []

mutual

/-- The written form of a tree at a depth. -/
def chars (pretty : Bool) (depth : Nat) : Tree → List Char
  | .text content => escapeText content.toList
  | .element tag attrs children =>
    let head := '<' :: tag.toList ++ attrChars attrs
    if children.isEmpty then head ++ ['/', '>']
    else
      let indent := pretty && children.all isElement
      head ++ '>' :: childChars pretty indent (depth + 1) children
        ++ (if indent then indentation depth else []) ++ '<' :: '/' :: tag.toList ++ ['>']

/-- The written form of children at a depth, each on its own line when `indent` is set. -/
def childChars (pretty indent : Bool) (depth : Nat) : List Tree → List Char
  | [] => []
  | child :: rest =>
    (if indent then indentation depth else []) ++ chars pretty depth child
      ++ childChars pretty indent depth rest

end

mutual

/-- The written form of a tree at a depth, and `after` behind it.  What is already written is not
copied again for each element around it. -/
def charsBefore (pretty : Bool) (depth : Nat) (after : List Char) : Tree → List Char
  | .text content => escapeText content.toList ++ after
  | .element tag attrs children =>
    let head := '<' :: tag.toList ++ attrChars attrs
    if children.isEmpty then head ++ '/' :: '>' :: after
    else
      let indent := pretty && children.all isElement
      let close := '<' :: '/' :: tag.toList ++ '>' :: after
      head ++ '>' :: childCharsBefore pretty indent (depth + 1)
        ((if indent then indentation depth else []) ++ close) children

/-- The written form of children at a depth, and `after` behind it. -/
def childCharsBefore (pretty indent : Bool) (depth : Nat) (after : List Char) :
    List Tree → List Char
  | [] => after
  | child :: rest =>
    (if indent then indentation depth else [])
      ++ charsBefore pretty depth (childCharsBefore pretty indent depth after rest) child

end

mutual

theorem charsBefore_eq (pretty : Bool) (depth : Nat) (after : List Char) :
    ∀ tree : Tree, charsBefore pretty depth after tree = chars pretty depth tree ++ after
  | .text content => by simp [charsBefore, chars]
  | .element tag attrs children => by
    simp only [charsBefore, chars]
    split
    · simp
    · simp [childCharsBefore_eq]

theorem childCharsBefore_eq (pretty indent : Bool) (depth : Nat) (after : List Char) :
    ∀ children : List Tree, childCharsBefore pretty indent depth after children
      = childChars pretty indent depth children ++ after
  | [] => by simp [childCharsBefore, childChars]
  | child :: rest => by
    simp [childCharsBefore, childChars, charsBefore_eq,
      childCharsBefore_eq pretty indent depth after rest]

end

/-- The written form of a whole document. -/
def render (pretty : Bool) (tree : Tree) : String :=
  String.ofList (charsBefore pretty 0 [] tree)

/-- The written form of a document is what `chars` says. -/
theorem render_eq (pretty : Bool) (tree : Tree) :
    tree.render pretty = String.ofList (chars pretty 0 tree) := by
  simp [render, charsBefore_eq]

end Tree
end Markup
end Frontispiece
