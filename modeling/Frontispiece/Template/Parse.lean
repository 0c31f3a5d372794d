import Frontispiece.Template.Token
import Frontispiece.Text.Blank

/-!
# Templates from tokens

`Template.ofText?` reads a template.  It keeps a stack of the blocks that are open, each with the
elements read so far.

Tags of blocks, comments, decorators and partials that stand alone on a line take the line with
them: the blanks before the tag go, except before a partial, and so do the blanks and the line end
after it.  A tilde in a tag takes all blanks on its side.
-/

set_option autoImplicit false

namespace Frontispiece
namespace Template

/-- A blank inside a line. -/
def isSpace (c : Char) : Bool := c == ' ' || c == '\t'

/-- An end of a line. -/
def isLineEnd (c : Char) : Bool := c == '\n' || c == '\r'

/-- Whether a text starts with an empty line. -/
def startsEmptyLine (s : List Char) : Bool := (s.dropWhile isSpace).head?.any isLineEnd

/-- Whether a reversed text ends with an empty line; nothing does too. -/
def endsEmptyLine (reversed : List Char) : Bool := (reversed.dropWhile isSpace).head?.all isLineEnd

/-- The text without leading blanks and one line end. -/
def dropLineEnd (s : List Char) : List Char :=
  match s.dropWhile isSpace with
  | '\r' :: '\n' :: rest => rest
  | '\n' :: rest => rest
  | rest => rest

/-- The blanks at the end of a reversed text, if there are any. -/
def indentOf? (reversed : List Char) : Option String :=
  match reversed.takeWhile isSpace with
  | [] => none
  | blanks => some (String.ofList blanks.reverse)

/-- What opened a block. -/
inductive Opened where
  | root
  | block (call : Call) (names : List String)
  | decorator (call : Call)
  | insertion (call : Call)

/-- An open block: the elements so far, latest first, and those before the tag of the opposite
case. -/
structure Frame where
  opened : Opened
  elements : List Element := []
  first : Option (List Element) := none

/-- The reading of a template so far. -/
structure Assembly where
  /-- The innermost open block. -/
  top : Frame
  /-- The open blocks around it. -/
  around : List Frame
  /-- Whether the last tag takes the blanks after it. -/
  trimAfter : Bool
  /-- Whether the last tag stood alone on its line. -/
  alone : Bool

namespace Assembly

/-- Nothing read yet. -/
def start : Assembly := ⟨{ opened := .root }, [], false, false⟩

/-- The reading with an element. -/
def push (a : Assembly) (e : Element) : Assembly :=
  { a with top := { a.top with elements := e :: a.top.elements } }

/-- The reading with the last text changed, if the last element is text. -/
def changeLast (a : Assembly) (f : List Char → List Char) : Assembly :=
  match a.top.elements with
  | .text s :: rest =>
    { a with top := { a.top with elements := .text (String.ofList (f s.toList)) :: rest } }
  | _ => a

/-- The text as the last tag leaves it. -/
def trimmed (a : Assembly) (s : List Char) : List Char :=
  if a.trimAfter then s.dropWhile Text.isBlank
  else if a.alone then dropLineEnd s
  else s

/-- The reading with a text. -/
def pushText (a : Assembly) (s : List Char) : Assembly :=
  if a.trimAfter && s.all isBlank then a
  else { a.push (.text (String.ofList (a.trimmed s))) with alone := false }

/-- The reading with the tildes of a tag. -/
def trim (a : Assembly) (before after : Bool) : Assembly :=
  let a := if before then a.changeLast fun s => (s.reverse.dropWhile Text.isBlank).reverse else a
  { a with trimAfter := after }

/-- The reading with a check whether a tag stands alone; if so, the blanks before it may go. -/
def checkAlone (a : Assembly) (keepsIndent : Bool) (before after : List Char) : Assembly :=
  let isAlone := startsEmptyLine after && endsEmptyLine before
  let a :=
    if isAlone && !keepsIndent then
      a.changeLast fun s => (s.reverse.dropWhile isSpace).reverse
    else a
  { a with alone := isAlone }

/-- The reading with a block opened. -/
def openBlock (a : Assembly) (opened : Opened) : Assembly :=
  { a with top := { opened }, around := a.top :: a.around }

/-- The reading in the other body of a block. -/
def openOpposite? (a : Assembly) : Option Assembly :=
  match a.top.opened, a.top.first with
  | .block .., none =>
    some { a with top := { a.top with elements := [], first := some a.top.elements.reverse } }
  | _, _ => none

/-- The element of a block that is closed by a name. -/
def closedElement? (frame : Frame) (name : String) : Option Element :=
  let last := frame.elements.reverse
  let isClosed (call : Call) := call.head.closingName? == some name
  match frame.opened with
  | .root => none
  | .block call names =>
    if isClosed call then
      some (match frame.first with
        | some first => .block call names first last
        | none => .block call names last [])
    else none
  | .decorator call => if isClosed call then some (.decorator call (some last)) else none
  | .insertion call => if isClosed call then some (.insertion call none true last) else none

/-- The reading with the innermost block closed. -/
def closeBlock? (a : Assembly) (name : String) : Option Assembly :=
  match a.around with
  | [] => none
  | frame :: around => do
    let element ← closedElement? a.top name
    some ({ a with top := frame, around }.push element)

/-- The reading with a token. -/
def step? (a : Assembly) : Token → Option Assembly
  | .text content => some (a.pushText content)
  | .raw content => some (a.push (.text (String.ofList (a.trimmed content))))
  | .tag tag trimBefore trimAfter before after =>
    match tag with
    | .comment => some ((a.checkAlone false before after).push .comment)
    | tag =>
      let a := a.trim trimBefore trimAfter
      match tag with
      | .comment => some a
      | .output call => some (a.push (.output call))
      | .block call names =>
        some ((a.checkAlone false before after).openBlock (.block call names))
      | .decoratorBlock call =>
        some ((a.checkAlone false before after).openBlock (.decorator call))
      | .insertionBlock call =>
        some ((a.checkAlone false before after).openBlock (.insertion call))
      | .opposite => (a.checkAlone false before after).openOpposite?
      | .close name => (a.checkAlone false before after).closeBlock? name
      | .decorator call => some ((a.checkAlone false before after).push (.decorator call none))
      | .insertion call =>
        let indent := if trimBefore then none else indentOf? before
        some ((a.checkAlone true before after).push (.insertion call indent false []))

end Assembly

/-- A template from its text. -/
def ofText? (s : List Char) : Option Template := do
  let tokens ← Token.ofText? s
  let a ← tokens.foldlM Assembly.step? .start
  if a.around.isEmpty then some a.top.elements.reverse else none

end Template
end Frontispiece
