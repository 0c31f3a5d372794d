/-!
# A place in a YAML text

A `Cursor` is the rest of a text with the number of characters before it, and its line and column,
all counted from zero.

Five characters end a line; a carriage return with a line feed is one line end.  `readLine` reads
one line end and gives it in its normal form: a line feed, except for the two Unicode separators,
which stand for themselves.
-/

set_option autoImplicit false

namespace Frontispiece
namespace Yaml

/-- Whether a character ends a line. -/
def isBreak (c : Char) : Bool :=
  c == '\n' || c == '\r' || c == '\u0085' || c == '\u2028' || c == '\u2029'

/-- Whether a character is a space or a tab. -/
def isBlank (c : Char) : Bool :=
  c == ' ' || c == '\t'

/-- Whether a character may stand in a name. -/
def isNameChar (c : Char) : Bool :=
  c.isAlphanum || c == '_' || c == '-'

/-- The rest of a text and where it stands. -/
structure Cursor where
  rest : List Char
  index : Nat
  line : Nat
  column : Nat

namespace Cursor

/-- The first character of the rest satisfies `p`. -/
def sees (c : Cursor) (p : Char → Bool) : Bool :=
  c.rest.head?.any p

/-- Whether the rest starts with a character. -/
def starts (c : Cursor) (x : Char) : Bool :=
  c.rest.head? == some x

/-- Whether the character `n` places on is a blank or ends a line, or the text ends before it. -/
def blankAt (c : Cursor) (n : Nat) : Bool :=
  (c.rest.drop n).head?.all fun x => isBlank x || isBreak x

/-- Whether the rest is empty or starts with a line end. -/
def atLineEnd (c : Cursor) : Bool :=
  c.rest.head?.all isBreak

/-- The cursor after `n` characters of its line. -/
def advance (c : Cursor) (n : Nat) : Cursor where
  rest := c.rest.drop n
  index := c.index + n
  line := c.line
  column := c.column + n

/-- The characters up to the first that `p` does not hold of, and the cursor there.  No line end
satisfies `p`. -/
def takeWhile (c : Cursor) (p : Char → Bool) : List Char × Cursor :=
  let taken := c.rest.takeWhile p
  (taken, c.advance taken.length)

/-- The cursor at the first character that `p` does not hold of. -/
def skipWhile (c : Cursor) (p : Char → Bool) : Cursor :=
  (c.takeWhile p).2

/-- One line end in its normal form, and the cursor after it. -/
def readLine (c : Cursor) : List Char × Cursor :=
  let after (n : Nat) : Cursor := ⟨c.rest.drop n, c.index + n, c.line + 1, 0⟩
  match c.rest with
  | '\r' :: '\n' :: _ => (['\n'], after 2)
  | x :: _ => if x == '\u2028' || x == '\u2029' then ([x], after 1) else (['\n'], after 1)
  | [] => ([], c)

/-- Whether a line of the given three characters starts here: they mark the bounds of documents
when they stand at the start of a line with a blank after them. -/
def atMark (c : Cursor) (x : Char) : Bool :=
  c.column == 0 && c.rest.take 3 == [x, x, x] && c.blankAt 3

/-- Whether a document bound starts here. -/
def atDocumentMark (c : Cursor) : Bool :=
  c.atMark '-' || c.atMark '.'

end Cursor
end Yaml
end Frontispiece
