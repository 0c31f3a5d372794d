import Frontispiece.Markdown.Syntax
import Frontispiece.Text.Blank
import Frontispiece.Text.Punctuation

/-!
# Emphasis

A run of asterisks, underscores or tildes can open a span, close one, or both, which the
characters beside it decide.  `resolve` pairs the runs of a content: each closing run goes with the
nearest run before it that it matches, and the runs between the two become text.

Asterisks and underscores make emphasis one by one and strong emphasis two by two, from the inside
out.  Tildes strike a text out when two runs have the same one or two of them.
-/

set_option autoImplicit false

namespace Frontispiece
namespace Markdown

/-- A run of equal marks. -/
structure Run where
  mark : Char
  /-- How many of the marks are left. -/
  count : Nat
  /-- How many marks the run had at first. -/
  size : Nat
  opens : Bool
  closes : Bool

namespace Run

/-- The marks that are left. -/
def text (r : Run) : List Char := List.replicate r.count r.mark

/-- Whether a run can both open and close. -/
def both (r : Run) : Bool := r.opens && r.closes

/-- Whether a run of marks between two characters can open a span. -/
def canOpen (mark : Char) (size : Nat) (before after : Option Char) : Bool :=
  match after with
  | none => false
  | some after =>
    !Text.isBlank after &&
      match before with
      | none => true
      | some before =>
        (mark == '*' && !Text.isPunctuation after) || (mark == '~' && 1 < size)
          || Text.isBlank before || Text.isPunctuation before

/-- Whether a run of marks between two characters can close a span. -/
def canClose (mark : Char) (size : Nat) (before after : Option Char) : Bool :=
  match before with
  | none => false
  | some before =>
    !Text.isBlank before &&
      match after with
      | none => true
      | some after =>
        ((mark == '*' || (mark == '~' && 1 < size)) && !Text.isPunctuation before)
          || Text.isBlank after || Text.isPunctuation after

/-- The run of marks between two characters; none when it is plain text. -/
def between? (mark : Char) (size : Nat) (before after : Option Char) : Option Run :=
  let opens := canOpen mark size before after
  let closes := canClose mark size before after
  if (opens || closes) && !(mark == '~' && 2 < size) then some ⟨mark, size, size, opens, closes⟩
  else none

/-- Whether an opening run and a closing run make a span.  If one of them can do both, the sum of
their sizes is no multiple of three unless the sizes are. -/
def pairsWith (opening closing : Run) : Bool :=
  opening.mark == closing.mark
    && (opening.mark != '~' || opening.size == closing.size)
    && ((!opening.both && !closing.both) || (opening.size + closing.size) % 3 != 0
      || closing.size % 3 == 0)

/-- How many marks two runs that make a span give to it. -/
def shared (opening closing : Run) : Nat :=
  if opening.mark == '~' then closing.count
  else if 2 ≤ opening.count && 2 ≤ closing.count then 2
  else 1

/-- The span that a number of marks make. -/
def span (r : Run) (marks : Nat) (content : List Inline) : Inline :=
  if r.mark == '~' then .strike content
  else if marks == 2 then .strong content
  else .emphasis content

end Run

/-- What is found before emphasis is. -/
inductive Piece where
  | inline (found : Inline)
  | run (run : Run)
  /-- A bracket that may open a link or an image; `active` tells whether it still may, and `source`
  is the text after it. -/
  | bracket (image active : Bool) (source : List Char)

/-- The text of a bracket. -/
def bracketText (image : Bool) : List Char :=
  if image then ['!', '['] else ['[']

/-- The runs that are open, innermost first, each with what comes after it, and what comes before
the outermost.  All contents are reversed. -/
structure OpenRuns where
  base : List Inline
  runs : List (Run × List Inline)

namespace OpenRuns

/-- Nothing read. -/
def empty : OpenRuns := ⟨[], []⟩

/-- One more inline. -/
def push (o : OpenRuns) (i : Inline) : OpenRuns :=
  match o.runs with
  | [] => { o with base := i :: o.base }
  | (run, content) :: outer => { o with runs := (run, i :: content) :: outer }

/-- What open runs come to when they are plain text, reversed. -/
def flatten : List (Run × List Inline) → List Inline
  | [] => []
  | (run, content) :: outer => content ++ .text run.text :: flatten outer

/-- The open runs inside the nearest one that a closing run pairs with, that one with its content,
and the ones outside. -/
def nearest? (closing : Run) : List (Run × List Inline) →
    Option (List (Run × List Inline) × Run × List Inline × List (Run × List Inline))
  | [] => none
  | (run, content) :: outer =>
    if run.pairsWith closing then some ([], run, content, outer)
    else
      (nearest? closing outer).map fun (inner, found) => ((run, content) :: inner, found)

/-- One more run, of which at most as many marks as the fuel are paired. -/
def closeWithin : Nat → OpenRuns → Run → OpenRuns
  | 0, o, _ => o
  | fuel + 1, o, closing =>
    match if closing.closes then nearest? closing o.runs else none with
    | some (inner, opening, content, outer) =>
      let marks := opening.shared closing
      let span := opening.span marks (flatten inner ++ content).reverse
      let o : OpenRuns :=
        if marks < opening.count then
          { o with runs := ({ opening with count := opening.count - marks }, [span]) :: outer }
        else OpenRuns.push { o with runs := outer } span
      if marks < closing.count then
        closeWithin fuel o { closing with count := closing.count - marks }
      else o
    | none =>
      if closing.opens then { o with runs := (closing, []) :: o.runs }
      else o.push (.text closing.text)

/-- One more piece. -/
def add (o : OpenRuns) : Piece → OpenRuns
  | .inline found => o.push found
  | .run run => closeWithin (run.count + 1) o run
  | .bracket image _ _ => o.push (.text (bracketText image))

end OpenRuns

/-- The content that pieces make. -/
def resolve (pieces : List Piece) : List Inline :=
  let o := pieces.foldl OpenRuns.add .empty
  (OpenRuns.flatten o.runs ++ o.base).reverse

end Markdown
end Frontispiece
