import Frontispiece.Text.Blank
import Frontispiece.Text.Split

/-!
# Raw HTML in Markdown

Raw HTML is copied to the page.  This file recognises it: a tag in `tag?`, and a comment, a
processing instruction, a declaration or a section of character data in `markup?`.  Each function
gives the text after what it recognises.

Inside a paragraph a tag may go over several lines.  A tag that opens a block stands on one line.
-/

set_option autoImplicit false

namespace Frontispiece
namespace Markdown

/-- Whether a character is one of the ASCII blanks other than line ends. -/
def isLineBlank (c : Char) : Bool :=
  c == ' ' || c == '\t' || c == '\x0b' || c == '\x0c'

/-- Whether a character is one of the ASCII blanks. -/
def isAsciiBlank (c : Char) : Bool :=
  isLineBlank c || c == '\n' || c == '\r'

/-- Whether nothing is left of a line. -/
def atEnd (s : List Char) : Bool :=
  s.isEmpty || s.head? == some '\n'

/-- Whether only blanks are left of a line. -/
def blankRest (s : List Char) : Bool :=
  atEnd (s.dropWhile isLineBlank)

/-- The text after the blanks at its start, line ends included if `multiline` is set. -/
def skipBlanks (multiline : Bool) (s : List Char) : List Char :=
  s.dropWhile fun c => isLineBlank c || (multiline && (c == '\n' || c == '\r'))

/-- The text after the value of an attribute. -/
def attrValue? (multiline : Bool) : List Char → Option (List Char)
  | [] => none
  | c :: rest =>
    if c == '"' || c == '\'' then
      match Text.cutWhere? (fun x => x == c || (!multiline && (x == '\n' || x == '\r'))) rest with
      | some (value, after) => if (rest.drop value.length).head? == some c then some after else none
      | none => none
    else
      let bare (x : Char) : Bool :=
        !(isAsciiBlank x || x == '"' || x == '\'' || x == '=' || x == '<' || x == '>'
          || x == '\x60')
      if bare c then some (rest.dropWhile bare) else none

/-- The text after an attribute. -/
def attr? (multiline : Bool) : List Char → Option (List Char)
  | [] => none
  | c :: rest =>
    if c.isAlpha || c == '_' || c == ':' then
      let named := rest.dropWhile fun x =>
        x.isAlphanum || x == '_' || x == '.' || x == ':' || x == '-'
      match skipBlanks multiline named with
      | '=' :: value => attrValue? multiline (skipBlanks multiline value)
      | _ => some named
    else none

/-- The text after the attributes and the end of an opening tag, of which at most as many as the
fuel are read. -/
def openTagEnd? (multiline : Bool) : Nat → List Char → Option (List Char)
  | 0, _ => none
  | fuel + 1, s =>
    match skipBlanks multiline s with
    | '>' :: after => some after
    | '/' :: '>' :: after => some after
    | next =>
      if next.length == s.length then none
      else (attr? multiline next).bind (openTagEnd? multiline fuel)

/-- The text after the tag at the start of a text, whose opening angle bracket is already read. -/
def tag? (multiline : Bool) (s : List Char) : Option (List Char) :=
  let isNameChar (c : Char) : Bool := c.isAlphanum || c == '-'
  match s with
  | '/' :: c :: rest =>
    if c.isAlpha then
      match (rest.dropWhile isNameChar).dropWhile isLineBlank with
      | '>' :: after => some after
      | _ => none
    else none
  | c :: rest =>
    if c.isAlpha then openTagEnd? multiline (s.length + 1) (rest.dropWhile isNameChar) else none
  | [] => none

/-- The text after a comment, whose first four characters are already read.  A comment does not
start with `>` or `->`, and holds no two hyphens before its end. -/
def comment? (s : List Char) : Option (List Char) :=
  if Text.startsWith ['>'] s || Text.startsWith ['-', '>'] s then none
  else
    match Text.cutAt? ['-', '-'] s with
    | some (_, '>' :: after) => some after
    | _ => none

/-- The text after a comment, processing instruction, declaration or section of character data,
whose opening angle bracket is already read. -/
def markup? (s : List Char) : Option (List Char) :=
  match s with
  | '?' :: rest => (Text.cutAt? ['?', '>'] rest).map (·.2)
  | '!' :: '-' :: '-' :: rest => comment? rest
  | '!' :: rest =>
    match Text.dropLead? "[CDATA[".toList rest with
    | some data => (Text.cutAt? [']', ']', '>'] data).map (·.2)
    | none =>
      let after := rest.dropWhile Char.isAlpha
      if after.length < rest.length && after.head?.any isAsciiBlank then
        (Text.cutWhere? (· == '>') after).map (·.2)
      else none
  | _ => none

/-- The text after the raw HTML at the start of a text, whose opening angle bracket is already
read. -/
def rawHtml? (s : List Char) : Option (List Char) :=
  (markup? s).or (tag? true s)

/-! ## Blocks of HTML

How a line starts says how far its block of HTML goes: to some closing mark, or to a blank line. -/

/-- The names of the elements that open a block wherever they start a line. -/
def blockTags : List String :=
  ["address", "article", "aside", "base", "basefont", "blockquote", "body", "caption", "center",
    "col", "colgroup", "dd", "details", "dialog", "dir", "div", "dl", "dt", "fieldset",
    "figcaption", "figure", "footer", "form", "frame", "frameset", "h1", "h2", "h3", "h4", "h5",
    "h6", "head", "header", "hr", "html", "iframe", "legend", "li", "link", "main", "menu",
    "menuitem", "nav", "noframes", "ol", "optgroup", "option", "p", "param", "section", "source",
    "summary", "table", "tbody", "td", "tfoot", "th", "thead", "title", "tr", "track", "ul"]

/-- The elements whose block goes on to their end tag. -/
def verbatimTags : List String := ["pre", "style", "script", "textarea"]

/-- How a block of HTML ends. -/
inductive HtmlEnd where
  /-- With the line that holds a text. -/
  | mark (text : List Char)
  /-- Before a blank line. -/
  | blank

/-- Whether a line, whose opening angle bracket is already read, starts with one of the names, in
any case; the text after the name satisfies `ended`. -/
def startsWithName (names : List String) (ended : List Char → Bool) (s : List Char) :
    Option String :=
  let name := (s.takeWhile Char.isAlphanum)
  let lower := String.ofList (name.map Char.toLower)
  if names.contains lower && ended (s.drop name.length) then some lower else none

/-- How the block of HTML ends that starts a line, if it may also interrupt a paragraph.  The
opening angle bracket is already read. -/
def interruptingHtml? (s : List Char) : Option HtmlEnd :=
  let blankOrEnd (after : List Char) : Bool :=
    after.head?.all fun c => isAsciiBlank c || c == '>'
  match startsWithName verbatimTags blankOrEnd s with
  | some name => some (.mark ("</".toList ++ name.toList ++ ['>']))
  | none =>
    match s with
    | '!' :: '-' :: '-' :: _ => some (.mark ['-', '-', '>'])
    | '?' :: _ => some (.mark ['?', '>'])
    | _ =>
      if Text.startsWith "![CDATA[".toList s then some (.mark [']', ']', '>'])
      else if s.head? == some '!' && (s.drop 1).head?.any Char.isAlpha then some (.mark ['>'])
      else
        let tagEnd (after : List Char) : Bool :=
          (after.head?.all fun c => c == ' ' || c == '\t' || c == '>')
            || Text.startsWith ['/', '>'] after
        let s := if s.head? == some '/' then s.drop 1 else s
        (startsWithName blockTags tagEnd s).map fun _ => .blank

/-- How the block of HTML ends that starts a line outside a paragraph: besides the blocks that
may interrupt one there is a tag that stands alone on its line. -/
def htmlBlock? (s : List Char) : Option HtmlEnd :=
  match interruptingHtml? s with
  | some stop => some stop
  | none =>
    match tag? false s with
    | some after => if blankRest after then some .blank else none
    | none => none

end Markdown
end Frontispiece
