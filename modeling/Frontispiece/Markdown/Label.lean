import Frontispiece.Markdown.Entity
import Frontispiece.Markdown.Syntax
import Frontispiece.Markdown.Tag
import Frontispiece.Text.Folding

/-!
# Labels, addresses and titles

A link names its target by a label, or gives an address and a title.  A definition gives the
address and title of a label.  Labels are compared by their case folding after runs of blanks
became one space.

`readLabel?`, `readAddress?` and `readTitle?` read the three at the start of a text and give the
text after them.  `inlineTarget?` reads the target of a link in parentheses, and `definition?` a
link definition.
-/

set_option autoImplicit false

namespace Frontispiece
namespace Markdown

/-- How many characters a label may have. -/
def labelLimit : Nat := 1000

/-- The rest of a label and the text after its bracket.  `read` is what was read of it, reversed,
and `count` its length; `gap` tells whether it ends in a run of blanks, and `broken` whether that
run has a line end. -/
def labelFrom (count : Nat) (read : List Char) (gap broken : Bool) :
    List Char → Option (List Char × List Char)
  | [] => none
  | '\\' :: c :: rest =>
    if labelLimit ≤ count then none
    else labelFrom (count + 2) (c :: '\\' :: read) false false rest
  | c :: rest =>
    if labelLimit ≤ count || c == '[' || c == '\\' then none
    else if c == ']' then
      if read.all (· == ' ') then none else some (read.reverse, rest)
    else if isAsciiBlank c then
      if c == '\n' && broken then none
      else labelFrom (count + 1) (if gap then read else ' ' :: read) true (broken || c == '\n') rest
    else labelFrom (count + 1) (c :: read) false false rest

/-- A label after its opening bracket, with its runs of blanks as one space, and the text after
its closing bracket.  A label has no bracket without a backslash before it, and is not blank. -/
def readLabel? (s : List Char) : Option (List Char × List Char) :=
  labelFrom 0 [] false false s

/-- The target of a label. -/
def Definitions.find? (d : Definitions) (label : List Char) : Option Target :=
  d.lookup (Text.foldCase label)

/-- The definitions with one more, unless its label is already defined. -/
def Definitions.define (label : List Char) (target : Target) (d : Definitions) : Definitions :=
  let key := Text.foldCase label
  if d.any (·.1 == key) then d else d ++ [(key, target)]

/-! ## Addresses

An address may stand in angle brackets, and then blanks may be in it.  Without them its parentheses
must be balanced, up to a limit. -/

/-- The rest of an address in angle brackets, and the text after it.  `escaped` tells whether a
backslash stands before the text. -/
def pointedFrom (escaped : Bool) (read : List Char) : List Char → Option (List Char × List Char)
  | [] => none
  | c :: rest =>
    if escaped && Text.isAsciiPunctuation c then pointedFrom false (c :: read) rest
    else if c == '>' then some (read.reverse, rest)
    else if c == '<' || c == '\n' then none
    else pointedFrom (c == '\\') (c :: read) rest

/-- The rest of an address without angle brackets, in which `nest` parentheses are open, and the
text after it.  At most `limit + 1` may be open. -/
def bareFrom (limit nest : Nat) (escaped : Bool) (read : List Char) :
    List Char → Option (List Char × List Char)
  | [] => if nest == 0 then some (read.reverse, []) else none
  | c :: rest =>
    if escaped && Text.isAsciiPunctuation c then bareFrom limit nest false (c :: read) rest
    else if c ≤ ' ' || (c == ')' && nest == 0) then
      if nest == 0 then some (read.reverse, c :: rest) else none
    else if c == '(' && limit < nest then none
    else
      let nest := if c == '(' then nest + 1 else if c == ')' then nest - 1 else nest
      bareFrom limit nest (c == '\\') (c :: read) rest

/-- An address as it is written, and the text after it. -/
def readAddress? (limit : Nat) (s : List Char) : Option (List Char × List Char) :=
  match s with
  | '<' :: rest => pointedFrom false [] rest
  | s => bareFrom limit 0 false [] s

/-! ## Titles

A title stands between quotes or parentheses. -/

/-- The rest of a title that ends with the character `close`, as it is written, and the text after
it.  `refused` may not stand in it, and `escaped` tells whether a backslash stands before the
text. -/
def titleFrom (close : Char) (refused : Option Char) (escaped : Bool) (read : List Char) :
    List Char → Option (List Char × List Char)
  | [] => none
  | c :: rest =>
    if escaped then titleFrom close refused false (c :: read) rest
    else if c == close then some (read.reverse, rest)
    else if some c == refused then none
    else titleFrom close refused (c == '\\') (c :: read) rest

/-- A title as it is written, and the text after it.  `nested` tells whether an opening
parenthesis may stand in a title in parentheses. -/
def readTitle? (nested : Bool) (s : List Char) : Option (List Char × List Char) :=
  match s with
  | c :: rest =>
    if c == '"' || c == '\'' then titleFrom c none false [] rest
    else if c == '(' then titleFrom ')' (if nested then none else some '(') false [] rest
    else none
  | [] => none

/-- A text without the spaces and tabs at the starts of its lines but the first. -/
def unindentLines (start : Bool) : List Char → List Char
  | [] => []
  | c :: rest =>
    if start && (c == ' ' || c == '\t') then unindentLines true rest
    else c :: unindentLines (c == '\n') rest

/-! ## Targets

An address and a title are the target of a link.  In a definition they come after the label, and the
definition must end its line. -/

/-- The text after blanks with at most one line end. -/
def skipGap (s : List Char) : List Char :=
  match s.dropWhile isLineBlank with
  | '\n' :: rest => rest.dropWhile isLineBlank
  | rest => rest

/-- How many parentheses may be open in the address of a link, and in that of a definition. -/
def linkNesting : Nat := 32

@[inherit_doc linkNesting]
def definitionNesting : Nat := 1

/-- The target of a link in parentheses, and the text after it. -/
def inlineTarget? (s : List Char) : Option (Target × List Char) :=
  match s with
  | '(' :: s =>
    match readAddress? linkNesting (skipGap s) with
    | none => none
    | some (url, s) =>
      let s := skipGap s
      let (title, s) :=
        match readTitle? false s with
        | some (title, after) => (unescape (unindentLines false title), skipGap after)
        | none => ([], s)
      match s with
      | ')' :: rest => some (⟨unescape url, title⟩, rest)
      | _ => none
  | _ => none

/-- The text after blanks with at most one line end, and whether there was one; none when there
are two line ends. -/
def definitionGap? (s : List Char) : Option (List Char × Bool) :=
  match s.dropWhile isLineBlank with
  | '\n' :: rest =>
    let rest := rest.dropWhile isLineBlank
    if rest.head? == some '\n' || rest.isEmpty then none else some (rest, true)
  | rest => some (rest, false)

/-- The text after the rest of a line, if that is blank. -/
def lineAfter? (s : List Char) : Option (List Char) :=
  match s.dropWhile isLineBlank with
  | [] => some []
  | '\n' :: rest => some rest
  | _ => none

/-- The link definition at the start of a text, with the text after it, which starts a line.  A
label or title does not go beyond the first `limit` lines. -/
def definition? (limit : Nat) (s : List Char) : Option (List Char × Target × List Char) :=
  let within (rest : List Char) : Bool :=
    (s.take (s.length - rest.length)).count '\n' < limit
  match s with
  | '[' :: body => do
    let (label, rest) ← (readLabel? body).filter fun (_, rest) => within rest
    let (start, _) ← (Text.dropLead? [':'] rest).bind definitionGap?
    let (url, rest) ← readAddress? definitionNesting start
    let untitled :=
      (lineAfter? rest).map fun after => (label, (⟨unescape url, []⟩ : Target), after)
    if rest.length == start.length then none
    else
      match definitionGap? rest with
      | none => untitled
      | some ([], _) => untitled
      | some (next, broken) =>
        let titled := do
          let (title, after) ← (readTitle? true next).filter fun (title, after) =>
            !title.contains '\n' || within after
          let after ← lineAfter? after
          some (label, (⟨unescape url, unescape title⟩ : Target), after)
        if next.length == rest.length then none
        else if broken then titled.or untitled
        else titled
  | _ => none

end Markdown
end Frontispiece
