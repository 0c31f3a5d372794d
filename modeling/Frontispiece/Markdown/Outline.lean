import Frontispiece.Markdown.Label
import Frontispiece.Markdown.Line

/-!
# The blocks of a document

`outline` reads the blocks of a text and its link definitions.  The content of the blocks stays
text.

Containers, which are quotes, lists and items, are open until a line does not go on with them.  A
line first goes through the marks of the open containers, then opens new ones, and then starts a
block; the block reads the lines that belong to it.  Only a paragraph goes on in lines that are
not in all of its containers.

A list is loose when a blank line stands between two of its items or two blocks of one of them.
-/

set_option autoImplicit false

namespace Frontispiece
namespace Markdown

/-- A block with its content as text. -/
abbrev RawBlock : Type := Block (List Char)

/-- An open container with what was read of it, latest first. -/
inductive Container where
  | quote (blocks : List RawBlock)
  | list (mark : ListMark) (tight : Bool) (items : List (List RawBlock))
  /-- An item, and the indentation of what belongs to it. -/
  | item (indent : Nat) (blocks : List RawBlock)

/-- The rest of a line that goes on with a container. -/
def Container.enter? (l : Line) : Container → Option Line
  | .quote _ => l.quoteMark?
  | .list .. => some l
  | .item indent _ =>
    let (after, missing) := l.take indent
    if missing == 0 || atEnd after.rest then some after else none

/-- How many containers a line goes on with, outermost first, and the rest of the line. -/
def enterAll : List Container → Line → Nat × Line
  | [], l => (0, l)
  | c :: inner, l =>
    match c.enter? l with
    | some l =>
      let (n, l) := enterAll inner l
      (n + 1, l)
    | none => (0, l)

/-- What was read of a document. -/
structure Outline where
  /-- The open containers, innermost first. -/
  opened : List Container
  /-- The blocks before the outermost open container, latest first. -/
  blocks : List RawBlock
  /-- Whether the line before was blank and no block has started since. -/
  blankBefore : Bool
  /-- Whether the line before opened an item and nothing else. -/
  itemOnly : Bool
  /-- The checkbox that goes to the next paragraph. -/
  task : Option Bool
  definitions : Definitions

namespace Outline

/-- Nothing read. -/
def empty : Outline := ⟨[], [], false, false, none, []⟩

/-- The containers that are open, outermost first. -/
def containers (o : Outline) : List Container := o.opened.reverse

/-- How many open containers a line goes on with, and the rest of the line. -/
def enter (o : Outline) (line : List Char) : Nat × Line :=
  enterAll o.containers (.ofText line)

/-- The rest of a line that goes on with all open containers. -/
def inside? (o : Outline) (line : List Char) : Option Line :=
  let (n, l) := o.enter line
  if n == o.opened.length then some l else none

/-- One more block in the innermost container. -/
def add (o : Outline) (b : RawBlock) : Outline :=
  match o.opened with
  | .quote blocks :: outer => { o with opened := .quote (b :: blocks) :: outer }
  | .item indent blocks :: outer => { o with opened := .item indent (b :: blocks) :: outer }
  | _ => { o with blocks := b :: o.blocks }

/-- One more open container. -/
def push (o : Outline) (c : Container) : Outline :=
  { o with opened := c :: o.opened }

/-- The innermost container closed. -/
def pop (o : Outline) : Outline :=
  match o.opened with
  | [] => o
  | .quote blocks :: outer => Outline.add { o with opened := outer } (.quote blocks.reverse)
  | .list mark tight items :: outer =>
    let start := if mark.numbered then some mark.number else none
    let itemOnly := if tight then false else o.itemOnly
    Outline.add { o with opened := outer, itemOnly := itemOnly } (.list start tight items.reverse)
  | .item _ blocks :: .list mark tight items :: outer =>
    { o with opened := .list mark tight (blocks.reverse :: items) :: outer }
  | .item _ _ :: outer => { o with opened := outer }

/-- All but the `n` outermost containers closed. -/
def popTo (n : Nat) : Nat → Outline → Outline
  | 0, o => o
  | fuel + 1, o => if n < o.opened.length then popTo n fuel o.pop else o

/-- All containers closed that a line does not go on with, and the rest of the line. -/
def goOn (o : Outline) (line : List Char) : Outline × Line :=
  let (n, l) := o.enter line
  (popTo n o.opened.length o, l)

/-! ## Lists

A list is loose when a blank line stands between its items or inside one of them, which is known
only when more comes after the blank line. -/

/-- The list of the innermost open item made loose. -/
def loosen (o : Outline) : Outline :=
  match o.opened with
  | c :: .list mark _ items :: outer => { o with opened := c :: .list mark false items :: outer }
  | _ => o

/-- An item that starts with two blank lines is empty, and closed. -/
def closeEmptyItem (o : Outline) : Outline :=
  let o :=
    match o.opened with
    | .item .. :: _ => if o.itemOnly && o.blankBefore then o.pop else o
    | _ => o
  { o with itemOnly := false }

/-- The state before a block that is no item starts: a list without an open item is closed, and a
blank line before the block makes the list around it loose. -/
def closeList (o : Outline) : Outline :=
  let o := o.closeEmptyItem
  let o :=
    match o.opened with
    | .list .. :: _ => o.pop
    | _ => o
  if o.blankBefore then { o.loosen with blankBefore := false } else o

/-- The state before an item starts: in the open list if it has the same mark, and otherwise in a
new one. -/
def openList (o : Outline) (mark : ListMark) : Outline :=
  let o := o.closeEmptyItem
  match o.opened with
  | .list existing tight items :: outer =>
    if existing.mark == mark.mark then
      { o with opened := .list existing (tight && !o.blankBefore) items :: outer,
               blankBefore := false }
    else { (o.closeList.push (.list mark true [])) with blankBefore := false }
  | [] => { (o.push (.list mark true [])) with blankBefore := false }
  | _ => { (o.closeList.push (.list mark true [])) with blankBefore := false }

/-- The containers opened whose marks start a line, at most as many as the fuel, and the rest of the
line if there is any. -/
def openMarks : Nat → Outline → Line → Outline × Option Line
  | 0, o, l => (o, some l)
  | fuel + 1, o, l =>
    match l.listMark? with
    | some (mark, indent, l) =>
      let o := (o.openList mark).push (.item indent [])
      if blankRest l.rest then ({ o with itemOnly := true }, none)
      else
        match l.checkbox? with
        | some (checked, l) =>
          if blankRest l.rest then ({ o.add (.checkbox checked) with itemOnly := true }, none)
          else openMarks fuel { o with task := some checked } l
        | none => openMarks fuel o l
    | none =>
      match l.quoteMark? with
      | some l => openMarks fuel (o.closeList.push (.quote [])) l
      | none => (o, some l)

/-- The state after a blank line. -/
def blank (o : Outline) : Outline :=
  match o.opened with
  | .quote _ :: _ => o
  | .item indent blocks :: outer =>
    { o with opened := .item (if o.itemOnly then 0 else indent) blocks :: outer,
             blankBefore := true }
  | _ => { o with blankBefore := true }

/-! ## Code and HTML

These blocks take their lines as they are, after the containers have taken their part of them. -/

/-- The lines of fenced code, whose fence is indented by `indent` places, and the lines after
it. -/
def fencedLines (o : Outline) (fence : Fence) (indent : Nat) :
    List (List Char) → List Char × List (List Char)
  | [] => ([], [])
  | line :: rest =>
    match o.inside? line with
    | none => ([], line :: rest)
    | some l =>
      let start := (l.take indent).1
      let (mark, missing) := start.take (4 - indent)
      if 0 < missing && fence.closedBy mark.rest then ([], rest)
      else
        let (code, after) := fencedLines o fence indent rest
        (start.text ++ code, after)

/-- The lines of indented code after the first, with whether each is blank, and the lines after
it. -/
def indentedLines (o : Outline) : List (List Char) → List (List Char × Bool) × List (List Char)
  | [] => ([], [])
  | line :: rest =>
    match o.inside? line with
    | none => ([], line :: rest)
    | some l =>
      let (start, missing) := l.take 4
      if (missing == 0 || atEnd start.rest) && !start.rest.isEmpty then
        let (code, after) := indentedLines o rest
        ((start.text, blankRest start.rest) :: code, after)
      else ([], line :: rest)

/-- Indented code that starts with a line.  Blank lines at its end do not belong to it. -/
def indentedCode (o : Outline) (first : List Char) (rest : List (List Char)) :
    Outline × List (List Char) :=
  let (lines, after) := o.indentedLines rest
  let code := lines.reverse.dropWhile (·.2)
  let text := first ++ (code.reverse.map (·.1)).flatten
  (({ o with blankBefore := code.length < lines.length }).add (.code none text), after)

/-- The lines of HTML after the first, which is `line`, and the lines after them. -/
def htmlLines (o : Outline) (stop : HtmlEnd) (line : List Char) :
    List (List Char) → List Char × List (List Char)
  | [] => ([], [])
  | next :: rest =>
    match o.inside? next with
    | none => ([], next :: rest)
    | some l =>
      let ended : Bool :=
        match stop with
        | .mark text => (Text.cutAt? text line).isSome
        | .blank => blankRest l.rest
      if ended then ([], next :: rest)
      else
        let (html, after) := htmlLines o stop l.rest rest
        (l.text ++ html, after)

/-! ## Paragraphs and tables

What else starts a line is a paragraph at first.  The next line may make a table of it, and its last
line a heading. -/

/-- The rows of a table with so many columns, and the lines after it. -/
def tableRows (o : Outline) (columns : Nat) :
    List (List Char) → List (List (List Char)) × List (List Char)
  | [] => ([], [])
  | line :: rest =>
    match o.inside? line with
    | none => ([], line :: rest)
    | some l =>
      if interrupts l.unindented rest.head? true then ([], line :: rest)
      else
        let (rows, after) := tableRows o columns rest
        (cells columns l.unindented :: rows, after)

/-- The table whose header is a line, if the line after it is a delimiter row with as many
columns, and the lines after it. -/
def table? (o : Outline) (header : List Char) (rest : List (List Char)) :
    Option (RawBlock × List (List Char)) :=
  match rest with
  | [] => none
  | line :: rest =>
    if pipes ' ' header == 0 then none
    else
      match (o.inside? line).bind delimiterRow? with
      | none => none
      | some columns =>
        if columns.length == headerCells header then
          let (rows, after) := o.tableRows columns.length rest
          some (.table columns (cells columns.length header) rows, after)
        else none

/-- The lines of a paragraph after the first, the level of the heading that it is if its last line
is underlined, and the lines after it. -/
def paragraphLines (o : Outline) :
    List (List Char) → List (List Char) × Option Nat × List (List Char)
  | [] => ([], none, [])
  | line :: rest =>
    let (n, l) := o.enter line
    let inside := n == o.opened.length
    let (start, missing) := l.take 4
    let level := if 0 < missing && inside then underline? start.rest else none
    if level.isSome then ([], level, rest)
    else if (0 < missing && interrupts start.rest rest.head? inside) || atEnd l.unindented then
      ([], none, line :: rest)
    else
      let (lines, level, after) := paragraphLines o rest
      (l.rest :: lines, level, after)

/-- A table, a paragraph or a heading that starts with a line. -/
def paragraph (o : Outline) (first : List Char) (rest : List (List Char)) :
    Outline × List (List Char) :=
  let task := o.task
  let o := { o with task := none }
  match o.table? first rest with
  | some (table, after) => (o.add table, after)
  | none =>
    let (lines, level, after) := o.paragraphLines rest
    let content := Text.dropTrailing isAsciiBlank (first ++ lines.flatten)
    match level with
    | some level => (o.add (.heading level content), after)
    | none => (o.add (.paragraph task content), after)

/-- The link definition that starts with a line, and the lines after it. -/
def definition? (o : Outline) (first : List Char) (rest : List (List Char)) :
    Option (Outline × List (List Char)) :=
  if first.head? == some '[' then
    let inner := (rest.map o.inside?).takeWhile Option.isSome
    let texts := inner.filterMap fun l => l.map Line.text
    let plain := texts.takeWhile fun s => !interrupts (s.dropWhile isLineBlank) none true
    let found := Markdown.definition? (plain.length + 1) (first ++ texts.flatten)
    found.map fun (label, target, after) =>
      let lines := (linesOf after).length
      ({ o with definitions := o.definitions.define label target },
        rest.drop (texts.length - lines))
  else none

/-! ## Reading

Each round takes the lines of one block. -/

/-- The block that the rest of a line starts, with the lines after it. -/
def block (o : Outline) (l : Line) (rest : List (List Char)) : Outline × List (List Char) :=
  let o := o.closeList
  let (start, missing) := l.take 4
  if missing == 0 then o.indentedCode start.text rest
  else
    let indent := 4 - missing
    let s := start.rest
    match if s.head? == some '<' then htmlBlock? (s.drop 1) else none with
    | some stop =>
      let (html, after) := o.htmlLines stop s rest
      (o.add (.html (List.replicate (max l.owed indent) ' ' ++ s ++ html)), after)
    | none =>
      if isRule s then (o.add .rule, rest)
      else
        match headingLevel? s with
        | some level => (o.add (.heading level (headingText (s.drop level))), rest)
        | none =>
          match fence? s with
          | some fence =>
            let (code, after) := o.fencedLines fence indent rest
            (o.add (.code (some (unescape fence.info)) code), after)
          | none =>
            match o.definition? s rest with
            | some (o, after) => (o, after)
            | none => o.paragraph s rest

/-- The blocks of the lines, of which at most as many as the fuel start a block. -/
def read : Nat → Outline → List (List Char) → Outline
  | 0, o, _ => o
  | _, o, [] => o
  | fuel + 1, o, line :: rest =>
    let (o, l) := o.goOn line
    match o.openMarks line.length l with
    | (o, none) => read fuel o rest
    | (o, some l) =>
      if blankRest l.rest then read fuel o.blank rest
      else
        let (o, rest) := o.block l rest
        read fuel o rest

end Outline

/-- The blocks and link definitions of a text. -/
def outline (s : List Char) : List RawBlock × Definitions :=
  let lines := linesOf s
  let o := Outline.read lines.length .empty lines
  let closed := Outline.popTo 0 o.opened.length o
  (closed.blocks.reverse, closed.definitions)

end Markdown
end Frontispiece
