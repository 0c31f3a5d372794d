import Frontispiece.Markdown.Read
import Frontispiece.Text.Split

/-!
# Checking and minifying Markdown

`markdownProblems` lists what is wrong with a text: it does not end a line, its fences do not come
in pairs, its lists have different marks, or a link has a label that is not defined.

`minifyMarkdown` takes out the blanks that end lines and the blank lines that follow others.
Lines between fences stay as they are.

Both find the fences line by line, without reading the blocks: `fencedLines` pairs them in order.
-/

set_option autoImplicit false

namespace Frontispiece
namespace Artifact

/-! ## Fences

Every line that starts with a mark changes sides, whichever mark the block was opened with. -/

/-- Whether a line is a fence. -/
def isFence (line : List Char) : Bool :=
  let start := Text.trimStart line
  Text.startsWith ['\x60', '\x60', '\x60'] start || Text.startsWith ['~', '~', '~'] start

/-- Lines, each with whether it stands between two fences; `inside` tells so of the first. -/
def fencedFrom (inside : Bool) : List (List Char) → List (List Char × Bool)
  | [] => []
  | line :: rest =>
    if isFence line then (line, false) :: fencedFrom (!inside) rest
    else (line, inside) :: fencedFrom inside rest

/-- The lines of a text, each with whether it stands between two fences. -/
def fencedLines (s : List Char) : List (List Char × Bool) :=
  fencedFrom false (Text.lines s)

/-! ## Checking

The checks go through the lines, and leave links without a definition to the reader of Markdown. -/

/-- Whether a line is a thematic break: three or more equal marks among blanks. -/
def isBreakLine (line : List Char) : Bool :=
  let marks := line.filter fun c => !Text.isBlank c
  match marks with
  | [] => false
  | mark :: _ =>
    3 ≤ marks.length && marks.all (· == mark) && (mark == '*' || mark == '-' || mark == '_')

/-- The mark of the item of a list that a line starts. -/
def itemMark? (line : List Char) : Option Char :=
  match Text.trimStart line with
  | mark :: ' ' :: _ => if mark == '-' || mark == '*' || mark == '+' then some mark else none
  | _ => none

/-- The marks of the items among lines, each once. -/
def itemMarks (lines : List (List Char × Bool)) : List Char :=
  let found := lines.filterMap fun (line, fenced) =>
    if fenced || isBreakLine line then none else itemMark? line
  ['*', '+', '-'].filter found.contains

/-- What is wrong with a text. -/
inductive MarkdownProblem where
  | missingFinalNewline
  | unclosedFence
  /-- Items have these marks. -/
  | inconsistentMarks (marks : List Char)
  /-- A link has this label. -/
  | undefinedReference (label : List Char)
  deriving DecidableEq, Repr

/-- The text of a problem. -/
def MarkdownProblem.message : MarkdownProblem → String
  | .missingFinalNewline => "missing final newline"
  | .unclosedFence => "unclosed code fence"
  | .inconsistentMarks marks =>
    "inconsistent list markers: "
      ++ Text.joined ", " (marks.map fun mark => String.ofList ['\'', mark, '\''])
  | .undefinedReference label => "undefined reference: [" ++ String.ofList label ++ "]"

/-- Everything that is wrong with a text; a valid text has no problem. -/
def markdownProblems (s : List Char) : List MarkdownProblem :=
  let lines := fencedLines s
  let marks := itemMarks lines
  (if s.isEmpty || s.getLast? == some '\n' then [] else [.missingFinalNewline])
    ++ (if (lines.countP fun line => isFence line.1) % 2 == 0 then [] else [.unclosedFence])
    ++ (if marks.length ≤ 1 then [] else [.inconsistentMarks marks])
    ++ (Markdown.read s).undefined.map .undefinedReference

/-! ## Minifying

Lines between fences are kept.  Others are trimmed, and of several blank ones a single one is left.
-/

/-- What is kept of a line outside fences that is not blank: two spaces at its end stand for a line
break if the next line has text. -/
def keptLine (line : List Char) (next : Option (List Char × Bool)) : List Char :=
  let isBreak := Text.endsWith [' ', ' '] line && next.any fun (next, _) => !Text.allBlank next
  Text.trimEnd line ++ (if isBreak then [' ', ' '] else [])

/-- The lines that are kept, latest first, when `kept` were kept before. -/
def keptLines (kept : List (List Char)) : List (List Char × Bool) → List (List Char)
  | [] => kept
  | (line, fenced) :: rest =>
    if fenced then keptLines (line :: kept) rest
    else if Text.allBlank line then
      match kept with
      | [] => keptLines kept rest
      | last :: _ => if last.isEmpty then keptLines kept rest else keptLines ([] :: kept) rest
    else keptLines (keptLine line rest.head? :: kept) rest

/-- A text without the blanks that do not matter. -/
def minifyMarkdown (s : List Char) : List Char :=
  let kept := (keptLines [] (fencedLines s)).dropWhile List.isEmpty
  if kept.isEmpty then [] else Text.join ['\n'] kept.reverse ++ ['\n']

end Artifact
end Frontispiece
