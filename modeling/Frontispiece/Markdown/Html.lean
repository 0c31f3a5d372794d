import Frontispiece.Markdown.Read

/-!
# Markdown as HTML

`toHtml` writes a document as HTML.  A block that has a line of its own starts one if the text
before it does not end one.  The paragraphs of a tight list are written without tags.

Text escapes ampersands and angle brackets, attributes escape quotes too, and addresses write
everything but a set of safe characters by the bytes of its encoding.
-/

set_option autoImplicit false

namespace Frontispiece
namespace Markdown

/-! ## Escaping

Text, attributes and addresses each have their own characters that cannot stand as they are. -/

/-- A character of a text. -/
def escapeTextChar (c : Char) : List Char :=
  if c == '&' then "&amp;".toList
  else if c == '<' then "&lt;".toList
  else if c == '>' then "&gt;".toList
  else [c]

/-- A character of an attribute. -/
def escapeAttrChar (c : Char) : List Char :=
  if c == '"' then "&quot;".toList
  else if c == '\'' then "&#39;".toList
  else escapeTextChar c

/-- A digit of a byte. -/
def byteDigit (n : Nat) : Char :=
  if n < 10 then Char.ofNat ('0'.toNat + n) else Char.ofNat ('A'.toNat + (n - 10))

/-- A byte of an address. -/
def escapeByte (b : UInt8) : List Char :=
  ['%', byteDigit (b.toNat / 16), byteDigit (b.toNat % 16)]

/-- A character of an address. -/
def escapeUrlChar (c : Char) : List Char :=
  if c == '&' then "&amp;".toList
  else if c == '\'' then "&#x27;".toList
  else if c.isAlphanum || "!#$%()*+,-./:;=?@_~".toList.contains c then [c]
  else (String.utf8EncodeChar c).flatMap escapeByte

/-! ## Writing

A page is written block by block, each on lines of its own. -/

/-- A page as far as it is written: its characters, reversed. -/
abbrev Written : Type := List Char

namespace Written

/-- More text. -/
def text (w : Written) (s : List Char) : Written := s.reverse ++ w

/-- More text, given as a string. -/
def put (w : Written) (s : String) : Written := w.text s.toList

/-- A line end unless the text before ends a line. -/
def freshLine (w : Written) : Written :=
  match w with
  | [] => w
  | last :: _ => if last == '\n' then w else '\n' :: w

/-- A text with its characters escaped. -/
def escaped (w : Written) (escape : Char → List Char) (s : List Char) : Written :=
  w.text (s.flatMap escape)

/-- A title, if there is one, after the text of another attribute. -/
def title (w : Written) (title : List Char) : Written :=
  if title.isEmpty then w else (w.put "\" title=\"").escaped escapeAttrChar title

end Written

mutual

/-- What an image shows when it cannot be seen: its text without tags. -/
def Inline.plain (w : Written) : Inline → Written
  | .text s => w.escaped escapeAttrChar s
  | .code s => w.escaped escapeAttrChar s
  | .html s => w.escaped escapeAttrChar s
  | .softBreak => w.put " "
  | .hardBreak => w.put " "
  | .emphasis content => Inline.plainAll w content
  | .strong content => Inline.plainAll w content
  | .strike content => Inline.plainAll w content
  | .link _ _ content => Inline.plainAll w content
  | .image _ _ content => Inline.plainAll w content

/-- `Inline.plain` on a content. -/
def Inline.plainAll (w : Written) : List Inline → Written
  | [] => w
  | i :: rest => Inline.plainAll (Inline.plain w i) rest

end

mutual

/-- An inline. -/
def Inline.write (w : Written) : Inline → Written
  | .text s => w.escaped escapeTextChar s
  | .code s => ((w.put "<code>").escaped escapeTextChar s).put "</code>"
  | .html s => w.text s
  | .softBreak => w.put "\n"
  | .hardBreak => w.put "<br />\n"
  | .emphasis content => (Inline.writeAll (w.put "<em>") content).put "</em>"
  | .strong content => (Inline.writeAll (w.put "<strong>") content).put "</strong>"
  | .strike content => (Inline.writeAll (w.put "<del>") content).put "</del>"
  | .link url title content =>
    let w := (((w.put "<a href=\"").escaped escapeUrlChar url).title title).put "\">"
    (Inline.writeAll w content).put "</a>"
  | .image url title content =>
    let w := ((w.put "<img src=\"").escaped escapeUrlChar url).put "\" alt=\""
    ((Inline.plainAll w content).title title).put "\" />"

/-- A content. -/
def Inline.writeAll (w : Written) : List Inline → Written
  | [] => w
  | i :: rest => Inline.writeAll (Inline.write w i) rest

end

/-- The checkbox of a task. -/
def writeCheckbox (w : Written) (checked : Bool) : Written :=
  w.put (if checked then "<input disabled=\"\" type=\"checkbox\" checked=\"\"/>\n"
    else "<input disabled=\"\" type=\"checkbox\"/>\n")

/-- The cells of a row between tags of a name. -/
def writeCells (w : Written) (tag : String) : List Align → List (List Inline) → Written
  | align :: columns, cell :: rest =>
    let style :=
      match align with
      | .unset => ""
      | .left => " style=\"text-align: left\""
      | .center => " style=\"text-align: center\""
      | .right => " style=\"text-align: right\""
    let w := w.put ("<" ++ tag ++ style ++ ">")
    writeCells ((Inline.writeAll w cell).put ("</" ++ tag ++ ">")) tag columns rest
  | _, _ => w

/-- The rows of a table. -/
def writeRows (w : Written) (columns : List Align) : List (List (List Inline)) → Written
  | [] => w
  | row :: rest =>
    writeRows ((writeCells (w.put "<tr>") "td" columns row).put "</tr>\n") columns rest

mutual

/-- A block; `tight` tells whether it stands in an item of a tight list. -/
def Block.write (tight : Bool) (w : Written) : Block (List Inline) → Written
  | .paragraph task content =>
    let w := if tight then w else w.freshLine.put "<p>"
    let w :=
      match task with
      | some checked => writeCheckbox w checked
      | none => w
    let w := Inline.writeAll w content
    if tight then w else w.put "</p>\n"
  | .checkbox checked => writeCheckbox w checked
  | .heading level content =>
    let tag := "h" ++ toString level
    (Inline.writeAll (w.freshLine.put ("<" ++ tag ++ ">")) content).put ("</" ++ tag ++ ">\n")
  | .rule => w.freshLine.put "<hr />\n"
  | .code info text =>
    let language := (info.getD []).takeWhile (· != ' ')
    let w := w.freshLine
    let w :=
      if language.isEmpty then w.put "<pre><code>"
      else ((w.put "<pre><code class=\"language-").escaped escapeAttrChar language).put "\">"
    (w.escaped escapeTextChar text).put "</code></pre>\n"
  | .html text => w.text text
  | .quote blocks =>
    (Block.writeAll false (w.freshLine.put "<blockquote>\n") blocks).put "</blockquote>\n"
  | .list start tight items =>
    let w := w.freshLine
    let w :=
      match start with
      | none => w.put "<ul>\n"
      | some 1 => w.put "<ol>\n"
      | some n => w.put ("<ol start=\"" ++ toString n ++ "\">\n")
    (Block.writeItems tight w items).put (if start.isSome then "</ol>\n" else "</ul>\n")
  | .table columns header rows =>
    let w := (writeCells (w.put "<table><thead><tr>") "th" columns header).put
      "</tr></thead><tbody>\n"
    (writeRows w columns rows).put "</tbody></table>\n"

/-- Blocks one after the other. -/
def Block.writeAll (tight : Bool) (w : Written) : List (Block (List Inline)) → Written
  | [] => w
  | b :: rest => Block.writeAll tight (Block.write tight w b) rest

/-- The items of a list. -/
def Block.writeItems (tight : Bool) (w : Written) : List (List (Block (List Inline))) → Written
  | [] => w
  | item :: rest =>
    let w := Block.writeAll tight (w.freshLine.put "<li>") item
    Block.writeItems tight (w.put "</li>\n") rest

end

/-- A text in Markdown as HTML. -/
def toHtml (s : List Char) : List Char :=
  (Block.writeAll false [] (read s).blocks).reverse

end Markdown
end Frontispiece
