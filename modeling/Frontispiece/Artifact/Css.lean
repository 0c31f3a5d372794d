import Frontispiece.Text.Split

/-!
# Compact stylesheets

`compactCss` takes comments and blanks out of a stylesheet where they do not matter: around braces,
semicolons, commas and child combinators, and around the colons of declarations.  Everywhere else
a run of blanks and comments becomes one space.  A semicolon before a closing brace goes too.

Strings are copied as they are.  Whether a colon belongs to a declaration depends on the block it
stands in: a block holds rules if what stands before its brace is a rule of a group, and
declarations otherwise.
-/

set_option autoImplicit false

namespace Frontispiece
namespace Artifact

/-- What is being read. -/
inductive CssMode where
  | plain
  /-- A comment; `star` tells whether the last character was an asterisk. -/
  | comment (star : Bool)
  /-- A string up to a quote; `escaped` tells whether the last character was a backslash. -/
  | string (quote : Char) (escaped : Bool)
  /-- The blanks after a separator. -/
  | gap
  deriving DecidableEq, Repr

/-- What has been written. -/
structure CssOutput where
  /-- The characters written, reversed. -/
  written : List Char
  /-- How many of them came after the last brace or semicolon. -/
  prelude : Nat
  /-- Whether blanks or a comment were passed since the last of them. -/
  space : Bool
  /-- The open blocks, innermost first: whether they hold declarations. -/
  blocks : List Bool

/-- The characters that need no space beside them. -/
def isCssSeparator (c : Char) : Bool :=
  c == '{' || c == '}' || c == ';' || c == ':' || c == ',' || c == '>'

/-- The starts of the rules of groups. -/
def groupRules : List String :=
  ["@media", "@supports", "@container", "@layer", "@document", "@keyframes"]

/-- Whether a block after this text holds rules. -/
def holdsRules (prelude : List Char) : Bool :=
  groupRules.any fun rule => Text.startsWith rule.toList (Text.trimStart prelude)

namespace CssOutput

/-- Nothing written. -/
def empty : CssOutput := ⟨[], 0, false, []⟩

/-- One character more. -/
def push (o : CssOutput) (c : Char) : CssOutput :=
  { o with written := c :: o.written, prelude := o.prelude + 1 }

/-- The space that was passed, if it matters here. -/
def flush (o : CssOutput) : CssOutput :=
  match o.written with
  | [] => { o with space := false }
  | last :: _ =>
    if o.space && !isCssSeparator last then { (o.push ' ') with space := false }
    else { o with space := false }

/-- One character after the space before it. -/
def emit (o : CssOutput) (c : Char) : CssOutput :=
  o.flush.push c

/-- A separator. -/
def separate (o : CssOutput) (c : Char) : CssOutput :=
  let o := { o with space := false }
  if c == '{' then
    let declares := !holdsRules (o.written.take o.prelude).reverse
    { o with written := c :: o.written, prelude := 0, blocks := declares :: o.blocks }
  else if c == '}' then
    let written :=
      match o.written with
      | ';' :: before => before
      | written => written
    { o with written := c :: written, prelude := 0, blocks := o.blocks.tail }
  else if c == ';' then { o with written := c :: o.written, prelude := 0 }
  else o.push c

end CssOutput

/-- What is written after the rest of a stylesheet. -/
def compactFrom (mode : CssMode) (o : CssOutput) : List Char → CssOutput
  | [] => o
  | c :: rest =>
    match mode with
    | .comment star =>
      if star && c == '/' then compactFrom .plain { o with space := true } rest
      else compactFrom (.comment (c == '*')) o rest
    | .string quote escaped =>
      let mode :=
        if escaped then .string quote false
        else if c == '\\' then .string quote true
        else if c == quote then .plain
        else .string quote false
      compactFrom mode (o.push c) rest
    | mode =>
      if mode == .gap && Text.isBlank c then compactFrom .gap o rest
      else if c == '/' && rest.head? == some '*' then
        match rest with
        | _ :: rest => compactFrom (.comment false) { o with space := true } rest
        | [] => o
      else if c == '"' || c == '\'' then compactFrom (.string c false) (o.emit c) rest
      else if Text.isBlank c then compactFrom .plain { o with space := true } rest
      else if c == ':' && o.blocks.head? != some true then compactFrom .plain (o.emit c) rest
      else if isCssSeparator c then compactFrom .gap (o.separate c) rest
      else compactFrom .plain (o.emit c) rest

/-- A stylesheet without what does not matter. -/
def compactCss (css : List Char) : List Char :=
  Text.trim (compactFrom .plain .empty css).written.reverse

end Artifact
end Frontispiece
