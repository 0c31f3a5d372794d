import Frontispiece.Markdown.Label
import Frontispiece.Markdown.Span

/-!
# Reading the content of a block

`readInlines` reads the content of a paragraph, a heading or a cell: code, links, images, raw HTML,
character references, line breaks and emphasis.  It also gives the labels that no definition has,
in the order in which they are found.

A content is one text.  The lines of a paragraph are joined by line feeds and may start with
blanks, which show in raw HTML only.
-/

set_option autoImplicit false

namespace Frontispiece
namespace Markdown

/-! ## Code

Code is what stands between two runs of equally many backticks. -/

/-- The text of code up to the next run of `size` backticks, and the text after the run.  `run`
backticks stand right before the text, and `read` is what was read, reversed. -/
def codeFrom (size run : Nat) (read : List Char) : List Char → Option (List Char × List Char)
  | [] => if run == size then some ((read.drop size).reverse, []) else none
  | c :: rest =>
    if c == '\x60' then codeFrom size (run + 1) (c :: read) rest
    else if run == size then some ((read.drop size).reverse, c :: rest)
    else codeFrom size 0 (c :: read) rest

/-- A text without the backslashes before its pipes. -/
def plainPipes : List Char → List Char
  | '\\' :: '|' :: rest => '|' :: plainPipes rest
  | c :: rest => c :: plainPipes rest
  | [] => []

/-- What code shows: line ends are spaces, and one space goes at each end when both ends have one
and the code is not all spaces. -/
def codeText (inTable : Bool) (source : List Char) : List Char :=
  let isEnd (c : Char) : Bool := c == ' ' || c == '\n'
  let shown := (unindentLines false source).map fun c => if c == '\n' then ' ' else c
  let shown :=
    if !source.all (· == ' ') && source.head?.any isEnd && source.getLast?.any isEnd then
      (shown.drop 1).dropLast
    else shown
  if inTable then plainPipes shown else shown

/-! ## Addresses in angle brackets

An address between angle brackets is a link to itself, if it has a scheme or is one of electronic
mail. -/

/-- A text cut after its first angle bracket that closes; no blank, control or opening bracket
stands before it. -/
def angled? (s : List Char) : Option (List Char × List Char) :=
  let address := s.takeWhile fun c => ' ' < c && c != '<' && c != '>'
  match s.drop address.length with
  | '>' :: rest => some (address, rest)
  | _ => none

/-- Whether an address starts with a scheme of two to thirty-two characters and a colon. -/
def hasScheme (s : List Char) : Bool :=
  let scheme := s.takeWhile fun c => c.isAlphanum || c == '.' || c == '+' || c == '-'
  scheme.head?.any Char.isAlpha && 2 ≤ scheme.length && scheme.length ≤ 32
    && (s.drop scheme.length).head? == some ':'

/-- Whether a text is a label of a domain. -/
def isDomainLabel (s : List Char) : Bool :=
  !s.isEmpty && s.length ≤ 63 && s.all (fun c => c.isAlphanum || c == '-')
    && s.head? != some '-' && s.getLast? != some '-'

/-- Whether a text is an address of electronic mail. -/
def isMailAddress (s : List Char) : Bool :=
  let isNameChar (c : Char) : Bool :=
    c.isAlphanum || ".!#$%&'*+/=?^_\x60\x7b|\x7d~-".toList.contains c
  match Text.cutWhere? (· == '@') s with
  | some (name, domain) =>
    !name.isEmpty && name.all isNameChar && (Text.splitOn (· == '.') domain).all isDomainLabel
  | none => false

/-- The link that an address in angle brackets makes, and the text after it; the opening bracket
is already read. -/
def autolink? (s : List Char) : Option (Inline × List Char) :=
  (angled? s).bind fun (address, rest) =>
    if hasScheme address then some (.link address [] [.text address], rest)
    else if isMailAddress address then
      some (.link ("mailto:".toList ++ address) [] [.text address], rest)
    else none

/-! ## Reading

A content is read from left to right into pieces.  An opening bracket is a piece too, until a
closing one makes a link of what stands between them. -/

/-- What the content of a block depends on. -/
structure Context where
  definitions : Definitions
  /-- Whether the content is that of a cell. -/
  inTable : Bool

/-- What was read of a content. -/
structure Reading where
  /-- The pieces, latest first. -/
  pieces : List Piece
  /-- The plain text after them, reversed. -/
  plain : List Char
  /-- The character before what follows, on the same line. -/
  before : Option Char
  /-- Where closing brackets stand that cannot close a link by themselves, each by the length of
  the text after it: they close labels that are not defined. -/
  spent : List Nat
  /-- The labels without definition, latest first. -/
  undefined : List (List Char)

namespace Reading

/-- Nothing read. -/
def empty : Reading := ⟨[], [], none, [], []⟩

/-- The plain text made a piece. -/
def flush (r : Reading) : Reading :=
  if r.plain.isEmpty then r
  else { r with pieces := .inline (.text r.plain.reverse) :: r.pieces, plain := [] }

/-- One more plain character. -/
def plainChar (r : Reading) (c : Char) : Reading :=
  { r with plain := c :: r.plain, before := some c }

/-- More plain text, which ends in the character `before`. -/
def plainText (r : Reading) (text : List Char) (before : Char) : Reading :=
  { r with plain := text.reverse ++ r.plain, before := some before }

/-- One more piece, after which `before` stands before what follows. -/
def piece (r : Reading) (p : Piece) (before : Option Char) : Reading :=
  let r := r.flush
  { r with pieces := p :: r.pieces, before := before }

/-- The pieces with no link left to open. -/
def deactivate (pieces : List Piece) : List Piece :=
  pieces.map fun
    | .bracket false _ source => .bracket false false source
    | p => p

/-- The pieces after the latest bracket, in order, the bracket, and the pieces before it, latest
first. -/
def latestBracket? (inside : List Piece) :
    List Piece → Option (List Piece × (Bool × Bool × List Char) × List Piece)
  | [] => none
  | .bracket image active source :: outer => some (inside, (image, active, source), outer)
  | p :: outer => latestBracket? (p :: inside) outer

/-- A link or image around the pieces inside a bracket. -/
def enclose (r : Reading) (image : Bool) (target : Target) (inside outer : List Piece) : Reading :=
  let content := resolve inside
  if image then
    { r with pieces := .inline (.image target.url target.title content) :: outer,
             before := some ')' }
  else
    { r with pieces := .inline (.link target.url target.title content) :: deactivate outer,
             before := some ')' }

/-- A closing bracket, with the text after it: what was read, and the text after what the bracket
closes. -/
def close (context : Context) (r : Reading) (rest : List Char) : Reading × List Char :=
  let r := r.flush
  match latestBracket? [] r.pieces with
  | none => (r.plainChar ']', rest)
  | some (inside, (image, active, source), outer) =>
    let unlinked (r : Reading) : Reading × List Char :=
      let bracket := Piece.inline (.text (bracketText image))
      (Reading.plainChar { r with pieces := inside.reverse ++ bracket :: outer } ']', rest)
    let refer (r : Reading) (label after : List Char) : Reading × List Char :=
      match context.definitions.find? label with
      | some target => (r.enclose image target inside outer, after)
      | none => unlinked { r with undefined := label :: r.undefined }
    let own (after : List Char) : Reading × List Char :=
      if r.spent.contains rest.length then unlinked r
      else
        match readLabel? source with
        | some (label, end_) =>
          if end_.length == rest.length then refer r label after else unlinked r
        | none => unlinked r
    if !active then unlinked r
    else
      match inlineTarget? rest with
      | some (target, after) => (r.enclose image target inside outer, after)
      | none =>
        match rest with
        | '[' :: ']' :: after => own after
        | '[' :: labelled =>
          match readLabel? labelled with
          | some (label, after) => refer { r with spent := after.length :: r.spent } label after
          | none => own rest
        | _ => own rest

/-- What was read after one more character, with the text after what that character starts. -/
def step (context : Context) (r : Reading) (c : Char) (rest : List Char) : Reading × List Char :=
  let lineEnd (hard : Bool) (rest : List Char) : Reading × List Char :=
    (r.piece (.inline (if hard then .hardBreak else .softBreak)) none,
      rest.dropWhile fun c => c == ' ' || c == '\t')
  if c == '\n' then lineEnd false rest
  else if isLineBlank c then
    let blanks := rest.takeWhile isLineBlank
    match rest.drop blanks.length with
    | '\n' :: after => lineEnd (!blanks.isEmpty) after
    | _ => (r.plainChar c, rest)
  else if c == '\\' then
    match rest with
    | '\n' :: after => lineEnd true after
    | escaped :: after =>
      if Text.isAsciiPunctuation escaped then (r.plainChar escaped, after)
      else (r.plainChar c, rest)
    | [] => (r.plainChar c, rest)
  else if c == '\x60' then
    let run := (rest.takeWhile (· == c)).length
    let after := rest.drop run
    match codeFrom (run + 1) 0 [] after with
    | some (code, after) =>
      (r.piece (.inline (.code (codeText context.inTable code))) (some c), after)
    | none => (r.plainText (List.replicate (run + 1) c) c, after)
  else if c == '<' then
    match autolink? rest with
    | some (link, after) => (r.piece (.inline link) (some '>'), after)
    | none =>
      match rawHtml? rest with
      | some after =>
        let html := c :: rest.take (rest.length - after.length)
        (r.piece (.inline (.html html)) (some '>'), after)
      | none => (r.plainChar c, rest)
  else if c == '&' then
    match reference? rest with
    | some (text, after) => (r.plainText text ';', after)
    | none => (r.plainChar c, rest)
  else if c == '*' || c == '_' || c == '~' then
    let size := (rest.takeWhile (· == c)).length + 1
    let after := rest.drop (size - 1)
    match Run.between? c size r.before after.head? with
    | some run => (r.piece (.run run) (some c), after)
    | none => (r.plainText (List.replicate size c) c, after)
  else if c == '!' then
    match rest with
    | '[' :: after => (r.piece (.bracket true true after) (some '['), after)
    | _ => (r.plainChar c, rest)
  else if c == '[' then (r.piece (.bracket false true rest) (some c), rest)
  else if c == ']' then r.close context rest
  else (r.plainChar c, rest)

/-- `step` to the end of a text, at most as many times as the fuel. -/
def readAll (context : Context) : Nat → Reading → List Char → Reading
  | 0, r, _ => r
  | _, r, [] => r
  | fuel + 1, r, c :: rest =>
    let (r, rest) := r.step context c rest
    readAll context fuel r rest

end Reading

/-- The inlines of a content, and the labels in it that no definition has. -/
def readInlines (context : Context) (content : List Char) : List Inline × List (List Char) :=
  let r := (Reading.readAll context content.length .empty content).flush
  (resolve r.pieces.reverse, r.undefined.reverse)

end Markdown
end Frontispiece
