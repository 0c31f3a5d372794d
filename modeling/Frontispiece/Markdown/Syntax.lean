/-!
# Markdown documents

A document is a list of `Block`s.  A block is generic in its content: reading a document first
finds the blocks, with the text of their lines as content, and then the `Inline`s in each content,
which needs the link definitions of the whole document.
-/

set_option autoImplicit false

namespace Frontispiece
namespace Markdown

/-- What the text of a paragraph, a heading or a cell is made of. -/
inductive Inline where
  | text (text : List Char)
  | code (text : List Char)
  | html (text : List Char)
  | softBreak
  | hardBreak
  | emphasis (content : List Inline)
  | strong (content : List Inline)
  | strike (content : List Inline)
  | link (target title : List Char) (content : List Inline)
  | image (target title : List Char) (content : List Inline)

/-- How the cells of a column are aligned. -/
inductive Align where
  | unset
  | left
  | center
  | right
  deriving DecidableEq, Repr

/-- What a document is made of, with content of type `α`. -/
inductive Block (α : Type) where
  /-- A paragraph, which may start with the checkbox of a task. -/
  | paragraph (task : Option Bool) (content : α)
  /-- The checkbox of a task without text. -/
  | checkbox (checked : Bool)
  | heading (level : Nat) (content : α)
  /-- A thematic break. -/
  | rule
  /-- Code, with the info text of its fence if it stands in one. -/
  | code (info : Option (List Char)) (text : List Char)
  | html (text : List Char)
  | quote (blocks : List (Block α))
  /-- A list, with its first number if it is numbered.  The paragraphs of a tight list are not
  set apart. -/
  | list (start : Option Nat) (tight : Bool) (items : List (List (Block α)))
  /-- A table; all rows have as many cells as the table has columns. -/
  | table (columns : List Align) (header : List α) (rows : List (List α))

/-- Where a label leads. -/
structure Target where
  url : List Char
  title : List Char
  deriving DecidableEq, Repr

/-- The link definitions of a document by the folding of their labels, first definition first. -/
abbrev Definitions : Type := List (List Char × Target)

end Markdown
end Frontispiece
