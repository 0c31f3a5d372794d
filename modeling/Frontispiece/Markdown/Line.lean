import Frontispiece.Markdown.Syntax
import Frontispiece.Markdown.Tag
import Frontispiece.Text.Digits

/-!
# What starts a line of Markdown

A `Line` is the rest of a line whose start has been read.  Indentation counts places: a tab takes
as many as reach the next multiple of four, and when only a part of them is taken the others count
as spaces.

The other functions of this file look at the start of a text and tell which block or container it
opens: `Line.listMark?`, `Line.quoteMark?`, `isRule`, `headingLevel?`, `fence?`, `underline?` and
`delimiterRow?`.  `interrupts` tells which lines end a paragraph.

Lines keep their line feed, which only the last line of a text may lack.
-/

set_option autoImplicit false

namespace Frontispiece
namespace Markdown

/-- The lines of a text with their line feeds.  A carriage return, alone or before a line feed,
ends a line too. -/
def linesFrom (line : List Char) : List Char → List (List Char)
  | [] => if line.isEmpty then [] else [line.reverse]
  | '\r' :: '\n' :: rest => ('\n' :: line).reverse :: linesFrom [] rest
  | c :: rest =>
    if c == '\n' || c == '\r' then ('\n' :: line).reverse :: linesFrom [] rest
    else linesFrom (c :: line) rest

/-- The lines of a text. -/
def linesOf (s : List Char) : List (List Char) :=
  linesFrom [] s

/-! ## Indentation

A tab goes up to the next place that is a multiple of four, so that a container may take a part of
one. -/

/-- The rest of a line. -/
structure Line where
  rest : List Char
  /-- The places that are left of a tab. -/
  owed : Nat
  /-- The places since the start of the line or the last tab. -/
  column : Nat

namespace Line

/-- A whole line. -/
def ofText (s : List Char) : Line := ⟨s, 0, 0⟩

/-- The rest of a line after up to `n` places of indentation from its characters, and how many
places are missing. -/
def takeFrom (n : Nat) : List Char → Nat → Line × Nat
  | [], column => (⟨[], 0, column⟩, n)
  | c :: rest, column =>
    if n == 0 then (⟨c :: rest, 0, column⟩, 0)
    else if c == ' ' then takeFrom (n - 1) rest (column + 1)
    else if c == '\t' then
      let places := 4 - column % 4
      if n < places then (⟨rest, places - n, 0⟩, 0) else takeFrom (n - places) rest 0
    else (⟨c :: rest, 0, column⟩, n)

/-- The rest of a line after up to `n` places of indentation, and how many places are missing. -/
def take (n : Nat) (l : Line) : Line × Nat :=
  if n ≤ l.owed then ({ l with owed := l.owed - n }, 0) else takeFrom (n - l.owed) l.rest l.column

/-- The rest of a line after its indentation, spaces and tabs. -/
def unindented (l : Line) : List Char :=
  l.rest.dropWhile fun c => c == ' ' || c == '\t'

/-- The rest of a line, with what is left of a tab as spaces. -/
def text (l : Line) : List Char :=
  List.replicate l.owed ' ' ++ l.rest

/-- The rest of a line after `n` characters that are not tabs. -/
def drop (n : Nat) (l : Line) : Line :=
  ⟨l.rest.drop n, 0, l.column + n⟩

end Line

/-! ## Rules, headings and fences

These are blocks that a single line makes known. -/

/-- Whether a line is a thematic break: three or more equal marks, and blanks. -/
def isRule (s : List Char) : Bool :=
  match s with
  | mark :: _ =>
    let line := s.takeWhile (· != '\n')
    (mark == '*' || mark == '-' || mark == '_')
      && line.all (fun c => c == mark || c == ' ' || c == '\t')
      && 3 ≤ line.count mark
  | [] => false

/-- The level of the heading that a line is. -/
def headingLevel? (s : List Char) : Option Nat :=
  let level := (s.takeWhile (· == '#')).length
  if 1 ≤ level && level ≤ 6 && (s.drop level).head?.all isAsciiBlank then some level else none

/-- The text of a heading: the rest of its line without the marks that close it, which stand
after a space. -/
def headingText (s : List Char) : List Char :=
  let isEnd (c : Char) : Bool := c == ' ' || c == '\n'
  let s := s.dropWhile isLineBlank
  let line := Text.dropTrailing isEnd s
  let opened := Text.dropTrailing (· == '#') line
  if opened.isEmpty then []
  else
    let kept := Text.dropTrailing (· == ' ') opened
    if kept.length < opened.length then kept else Text.dropTrailing isAsciiBlank s

/-- The level of the heading that a line underlines. -/
def underline? (s : List Char) : Option Nat :=
  match s with
  | c :: rest =>
    if (c == '=' || c == '-') && blankRest (rest.dropWhile (· == c)) then
      some (if c == '=' then 1 else 2)
    else none
  | [] => none

/-- What opens a block of fenced code. -/
structure Fence where
  mark : Char
  size : Nat
  /-- The text after the marks. -/
  info : List Char

/-- The fence that a line is.  The text after a fence of backticks holds no backtick. -/
def fence? (s : List Char) : Option Fence :=
  match s with
  | mark :: _ =>
    let size := (s.takeWhile (· == mark)).length
    let info := s.drop size
    if (mark == '\x60' || mark == '~') && 3 ≤ size && !(mark == '\x60' && info.contains '\x60') then
      some ⟨mark, size, Text.dropTrailing isAsciiBlank (info.dropWhile isLineBlank)⟩
    else none
  | [] => none

/-- Whether a line closes the block of a fence. -/
def Fence.closedBy (f : Fence) (s : List Char) : Bool :=
  let size := (s.takeWhile (· == f.mark)).length
  f.size ≤ size && atEnd ((s.drop size).dropWhile (· == ' '))

/-! ## Containers

Quotes and items are opened by marks in front of a line.  What belongs to an item is indented as far
as the text after its mark. -/

/-- The rest of a line after the mark of a quote and one space. -/
def Line.quoteMark? (l : Line) : Option Line :=
  let after := (l.take 3).1
  if after.owed == 0 && after.rest.head? == some '>' then some ((after.drop 1).take 1).1 else none

/-- The mark of an item of a list. -/
structure ListMark where
  /-- The last character of the mark; the items of a list have the same. -/
  mark : Char
  /-- The number of the item, or zero. -/
  number : Nat
  /-- How many characters the mark has. -/
  width : Nat

/-- The item mark at the start of a text.  Blanks or the line end come after it. -/
def itemMark? (s : List Char) : Option ListMark :=
  let ended (m : ListMark) : Option ListMark :=
    if (s.drop m.width).head?.all fun c => c == ' ' || c == '\t' || c == '\n' then some m else none
  match s with
  | c :: _ =>
    if c == '-' || c == '+' || c == '*' then ended ⟨c, 0, 1⟩
    else
      let digits := (s.take 9).takeWhile Char.isDigit
      match Text.numeral? 10 digits, (s.drop digits.length).head? with
      | some number, some mark =>
        if mark == '.' || mark == ')' then ended ⟨mark, number, digits.length + 1⟩ else none
      | _, _ => none
  | [] => none

/-- Whether the items with this mark are numbered. -/
def ListMark.numbered (m : ListMark) : Bool :=
  m.mark == '.' || m.mark == ')'

/-- The item mark at the start of a line, the indentation of what belongs to the item, and the rest
of the line.  Blanks after the mark belong to the indentation unless they indent code. -/
def Line.listMark? (l : Line) : Option (ListMark × Nat × Line) :=
  let (start, missing) := l.take 4
  if missing == 0 || isRule start.rest then none
  else
    (itemMark? start.rest).map fun m =>
      let after := ((start.drop m.width).take 1).1
      let width := (4 - missing) + m.width + 1
      if blankRest after.rest then (m, width, after)
      else
        let (inner, short) := after.take 4
        if short == 0 then (m, width, after) else (m, width + (4 - short), inner)

/-- The checkbox at the start of an item, and the rest of the line.  A blank comes after it. -/
def Line.checkbox? (l : Line) : Option (Bool × Line) :=
  let start := (l.take 3).1
  match start.rest with
  | '[' :: c :: ']' :: after =>
    if after.head?.any isAsciiBlank then
      if isLineBlank c then some (false, start.drop 3)
      else if c == 'x' || c == 'X' then some (true, start.drop 3)
      else none
    else none
  | _ => none

/-! ## Paragraphs

A paragraph goes on until a line interrupts it. -/

/-- Whether a line ends the paragraph before it.  `next` is the line after it, and `inside` tells
whether the line is in all containers of the paragraph: if so, only an item that is not empty, and
whose number is one, ends the paragraph. -/
def interrupts (s : List Char) (next : Option (List Char)) (inside : Bool) : Bool :=
  let item : Bool :=
    match itemMark? s with
    | some m =>
      let empty := blankRest (s.drop m.width) && next.all blankRest
      !inside || ((!m.numbered || m.number == 1) && !empty)
    | none => false
  atEnd s || isRule s || (headingLevel? s).isSome || (fence? s).isSome || s.head? == some '>'
    || item || (s.head? == some '<' && (interruptingHtml? (s.drop 1)).isSome)

/-! ## Tables

A table is known by its second line, which has a cell of hyphens for each column. -/

/-- The alignments of the columns in the rest of a delimiter row, where `align` is that of the
current column, `started` tells whether something of it was read, and `dashed` whether a hyphen
was. -/
def delimiterCells (align : Align) (started dashed : Bool) : List Char → Option (List Align)
  | [] => some (if started then [align] else [])
  | c :: rest =>
    if c == '\n' then some (if started then [align] else [])
    else if c == ' ' then delimiterCells align started dashed rest
    else if c == ':' then
      let align :=
        match started, align with
        | false, .unset => .left
        | true, .left => .center
        | true, .unset => .right
        | _, align => align
      delimiterCells align true dashed rest
    else if c == '-' then delimiterCells align true true rest
    else if c == '|' && dashed then (delimiterCells .unset false false rest).map (align :: ·)
    else none

/-- The alignments of the columns of the table whose delimiter row a line is.  The row has a pipe
and a hyphen. -/
def delimiterRow? (l : Line) : Option (List Align) :=
  match l.take 4 with
  | (_, 0) => none
  | (start, _) =>
    let s := start.rest
    if s.contains '|' && s.contains '-' then
      delimiterCells .unset false false (if s.head? == some '|' then s.drop 1 else s)
    else none

/-- The pipes of a line that no backslash precedes; `before` is the character before the text. -/
def pipes (before : Char) : List Char → Nat
  | [] => 0
  | c :: rest => (if c == '|' && before != '\\' then 1 else 0) + pipes c rest

/-- How many cells a header row has: one more than pipes between them. -/
def headerCells (s : List Char) : Nat :=
  let s := Text.dropTrailing isAsciiBlank (s.dropWhile isLineBlank)
  let inner := pipes ' ' s
  let first := if s.head? == some '|' then 1 else 0
  let last :=
    match s.reverse with
    | '|' :: before :: _ => if before == '\\' then 0 else 1
    | ['|'] => 1
    | _ => 0
  inner + 1 - first - last

/-- The text before the next pipe that no backslash precedes, and the text from there. -/
def cutCell (before : Char) : List Char → List Char × List Char
  | [] => ([], [])
  | c :: rest =>
    if c == '\n' || (c == '|' && before != '\\') then ([], c :: rest)
    else
      let (cell, after) := cutCell c rest
      (c :: cell, after)

/-- The cells of a row, of which at most as many as the fuel are read. -/
def cellsWithin : Nat → List Char → List (List Char)
  | 0, _ => []
  | fuel + 1, s =>
    let s := (if s.head? == some '|' then s.drop 1 else s).dropWhile isLineBlank
    if atEnd s then []
    else
      let (cell, after) := cutCell ' ' s
      Text.dropTrailing isLineBlank cell :: cellsWithin fuel after

/-- The cells of a row of a table with so many columns: cells in excess are dropped, and missing
ones are empty. -/
def cells (columns : Nat) (s : List Char) : List (List Char) :=
  let found := (cellsWithin s.length s).take columns
  found ++ List.replicate (columns - found.length) []

end Markdown
end Frontispiece
