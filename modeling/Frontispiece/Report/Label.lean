import Frontispiece.Text.Offset
import Frontispiece.Text.Split
import Frontispiece.Text.Width

/-!
# Reports with one label

A report shows the line of a text that holds a character, with a message below the character, and
names the place by line and column, both counted from one.

* `reportAt` makes a report for a byte offset, which is brought into the text.
* `lineColumnOffset` is the offset of a line and a column, added up in a word of the machine.
-/

set_option autoImplicit false

namespace Frontispiece
namespace Report

/-- How many values a word has in which the bytes of a text are counted.  A word has 64 bits, which
is enough for every text that a memory can hold; for any other text it is taken to be long enough. -/
def wordRange (s : List Char) : Nat := max (Nat.pow 2 64) (Text.byteLength s + 1)

/-- The offset of a column of a line, both counted from one; a column counts bytes.  The start of the
line and the bytes before the column are added in a word, so that the sum wraps around when it is
too large for it.  Beyond the text the offset is the length of the text. -/
def lineColumnOffset (s : List Char) (line column : Nat) : Nat :=
  let before := ((Text.splitOn (· == '\n') s).take (line - 1)).map fun l => Text.byteLength l + 1
  let start := min (before.foldl (· + ·) 0) (Text.byteLength s)
  min ((start + (column - 1)) % wordRange s) (Text.byteLength s)

/-- Whether a character ends a line of a report. -/
def endsLine (c : Char) : Bool :=
  c == '\r' || c == '\n' || c == '\x0b' || c == '\x0c' || c == '\u0085' || c == '\u2028'
    || c == '\u2029'

/-- The number of lines before the character at an index, that line, and the index in it, when
`line` holds the characters of the line so far, reversed. -/
def locate (count : Nat) (line : List Char) (column : Nat) :
    List Char → Nat → Nat × List Char × Nat
  | [], index => (count, line.reverse, column + index)
  | '\r' :: '\n' :: rest, index =>
    if index < 2 then (count, line.reverse, column + index)
    else locate (count + 1) [] 0 rest (index - 2)
  | c :: rest, index =>
    if index = 0 then
      (count, line.reverse ++ (c :: rest).takeWhile (!endsLine ·), column)
    else if endsLine c then locate (count + 1) [] 0 rest (index - 1)
    else locate count (c :: line) (column + 1) rest (index - 1)

/-- The number of cells of a character at an index of its line: a tab ends at the next index that
is a multiple of four. -/
def cells (c : Char) (index : Nat) : Nat :=
  if c == '\t' then (index / 4 + 1) * 4 - index
  else if Text.isBlank c then 1
  else Text.width c

/-- A line as it is shown. -/
def shownLine (line : List Char) : List Char :=
  line.zipIdx.flatMap fun (c, index) =>
    if Text.isBlank c then List.replicate (cells c index) ' ' else [c]

/-- `first` and then `fill` in the cells of a character; one cell beyond the end of the line. -/
def filled (text : List Char) (index : Nat) (first fill : Char) : List Char :=
  match text[index]? with
  | none => [first]
  | some c =>
    match cells c index with
    | 0 => []
    | n + 1 => first :: List.replicate n fill

/-- A report on the character at an index. -/
def report (filename : String) (s : List Char) (index : Nat) (title message : String) : String :=
  let (count, line, column) := locate 0 [] 0 s index
  let line := Text.trimEnd line
  let number := toString (count + 1)
  let pad := "".pushn ' ' (number.length + 2)
  let before := (List.range column).flatMap fun i => filled line i ' ' ' '
  let mark := before ++ filled line column '┬' '─'
    ++ [column + 1, column + 2].flatMap fun i => filled line i ' ' ' '
  let arrow := before ++ filled line column '╰' '─'
    ++ [column + 1, column + 2].flatMap fun i => filled line i '─' '─'
  "Error: " ++ title ++ "\n"
    ++ pad ++ "╭─[" ++ filename ++ ":" ++ number ++ ":" ++ toString (column + 1) ++ "]\n"
    ++ pad ++ "│\n"
    ++ " " ++ number ++ " │ " ++ String.ofList (shownLine line) ++ "\n"
    ++ pad ++ "│ " ++ String.ofList mark ++ "\n"
    ++ pad ++ "│ " ++ String.ofList arrow ++ " " ++ message ++ "\n"
    ++ "".pushn '─' (number.length + 2) ++ "╯\n"

/-- The index of the character that a report on an offset shows: the first one that does not start
before the offset, or the last one. -/
def labelIndex (s : List Char) (offset : Nat) : Nat :=
  min (Text.charIndex s offset) (s.length - 1)

/-- A report on the character at an offset; one line for an empty text. -/
def reportAt (filename : String) (s : List Char) (offset : Nat) (title message : String) :
    String :=
  if s.isEmpty then filename ++ ": " ++ title ++ ": " ++ message
  else report filename s (labelIndex s offset) title message

/-- A report on a scene that cannot be read; without an offset it is one line. -/
def scene (filename : String) (s : List Char) (offset : Option Nat) (message : String) : String :=
  let title := "invalid scene configuration"
  match offset with
  | some offset => reportAt filename s offset title message
  | none => title ++ ": " ++ message

/-- The place that a report on an offset names; none for an empty text. -/
def place? (filename : String) (s : List Char) (offset : Nat) : Option String :=
  if s.isEmpty then none
  else
    let (count, _, column) := locate 0 [] 0 s (labelIndex s offset)
    some (filename ++ ":" ++ toString (count + 1) ++ ":" ++ toString (column + 1))

end Report
end Frontispiece
