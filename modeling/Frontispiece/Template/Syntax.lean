import Frontispiece.Json.Basic

/-!
# Templates

A template is a list of `Element`s: text, and tags with what stands between them.  Tags hold
`Expr`essions: paths into the data, literals, and calls of helpers.
-/

set_option autoImplicit false

namespace Frontispiece
namespace Template

/-- A path to a value. -/
inductive Path where
  /-- A variable that a loop sets, of the block so many levels up. -/
  | loopVariable (level : Nat) (name : String)
  /-- Keys from the value of the block so many levels up. -/
  | relative (up : Nat) (keys : List String)
  /-- Keys from the data of the whole template. -/
  | absolute (keys : List String)
  deriving DecidableEq, Repr

/-- An expression inside a tag. -/
inductive Expr where
  /-- The name of a helper. -/
  | name (text : String)
  /-- A path, with the text it is written as. -/
  | path (path : Path) (text : String)
  | literal (value : Json)
  /-- A call with arguments in order and by name. -/
  | call (head : Expr) (args : List Expr) (named : List (String × Expr))
  deriving Inhabited

/-- The head of a tag with its arguments. -/
structure Call where
  head : Expr
  args : List Expr := []
  named : List (String × Expr) := []
  deriving Inhabited

/-- The text by which a closing tag refers to a head; a call has none. -/
def Expr.closingName? : Expr → Option String
  | .name text => some text
  | .path _ text => some text
  | _ => none

/-- A piece of a template. -/
inductive Element where
  | text (text : String)
  | comment
  /-- A value or the result of a helper. -/
  | output (call : Call)
  /-- A helper with a body, and another body for the opposite case.  `names` are those that the
  helper gives to what it passes to its body. -/
  | block (call : Call) (names : List String) (body inverse : List Element)
  /-- Defines a partial when there is a body. -/
  | decorator (call : Call) (body : Option (List Element))
  /-- A partial put in here.  Its lines are indented like the tag.  The body of a tag that has one
  is handed to the partial. -/
  | insertion (call : Call) (indent : Option String) (isBlock : Bool) (body : List Element)
  deriving Inhabited

end Template

/-- A template. -/
abbrev Template : Type := List Template.Element

end Frontispiece
