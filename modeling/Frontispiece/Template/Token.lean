import Frontispiece.Template.Reference

/-!
# Text and tags

`Token.ofText?` cuts a template into text and tags.  Two opening braces start a tag; a backslash
before them makes them text, and further backslashes there lose one.  A tag may have a tilde at
either end, which takes the blanks on that side away.

* `{{x}}`, `{{&x}}`, `{{{x}}}` are output; `{{#x}}`, `{{else}}` or `{{^}}`, and `{{/x}}` make
  blocks.
* `{{>x}}` and `{{#>x}}` insert partials, `{{*x}}` and `{{#*x}}` are decorators.
* `{{!x}}` and `{{!--x--}}` are comments.
* Between four braces stands a block whose body has no tags.
-/

set_option autoImplicit false

namespace Frontispiece
namespace Template

/-- A tag. -/
inductive Tag where
  | output (call : Call)
  | block (call : Call) (names : List String)
  | opposite
  | close (name : String)
  | decorator (call : Call)
  | decoratorBlock (call : Call)
  | insertion (call : Call)
  | insertionBlock (call : Call)
  | comment

/-- Text or a tag.  A tag comes with its tildes, the text before it reversed, and the text after
it. -/
inductive Token where
  | text (content : List Char)
  /-- Text in which nothing is a tag. -/
  | raw (content : List Char)
  | tag (tag : Tag) (trimBefore trimAfter : Bool) (before after : List Char)

/-- Two opening braces. -/
def opening : List Char := ['{', '{']

/-- Two closing braces. -/
def closing : List Char := ['}', '}']

/-- Whether a tag starts here. -/
def startsTag (s : List Char) : Bool := opening.isPrefixOf s

/-! ## Tags

The sign after the opening braces says which tag it is.  A tilde on either side takes away the
blanks there. -/

/-- Whether there is a tilde after blanks, and the rest after it and further blanks. -/
def tilde (s : List Char) : Bool × List Char :=
  match skipBlanks s with
  | '~' :: rest => (true, skipBlanks rest)
  | rest => (false, rest)

/-- The end of a tag: whether there is a tilde, and the rest after closing braces. -/
def tagEnd? (braces s : List Char) : Option (Bool × List Char) :=
  let (trim, rest) := tilde s
  (strip? braces rest).map (trim, ·)

/-- A tag that was read, with its tildes and the rest. -/
abbrev Read : Type := Tag × Bool × Bool × List Char

/-- A tag, closed by braces. -/
def closed? (braces : List Char) (trimBefore : Bool) (tag : Tag) (s : List Char) : Option Read :=
  (tagEnd? braces s).map fun (trimAfter, rest) => (tag, trimBefore, trimAfter, rest)

/-- Whether the other body of a block starts here, and its tag. -/
def opposite? (trimBefore : Bool) (s : List Char) : Option Read :=
  (strip? "else".toList s <|> strip? ['^'] s).bind (closed? closing trimBefore .opposite)

/-- The name in a closing tag, of a helper or of a partial. -/
def closeName? (s : List Char) : Option (String × List Char) :=
  let isName := fun c => isSymbol c || isPartialSymbol c
  match s.takeWhile isName with
  | [] => partialName? s
  | name => some (String.ofList name, s.dropWhile isName)

/-- The tag after a number sign. -/
def blockTag? (trimBefore : Bool) (s : List Char) : Option Read :=
  match s with
  | '*' :: rest => do
    let (call, _, rest) ← line? (skipBlanks rest)
    closed? closing trimBefore (.decoratorBlock call) rest
  | '>' :: rest => do
    let (call, rest) ← partialLine? (skipBlanks rest)
    closed? closing trimBefore (.insertionBlock call) rest
  | s => do
    let (call, names, rest) ← line? s
    closed? closing trimBefore (.block call names) rest

/-- Output between inner braces. -/
def bracedOutput? (trimBefore : Bool) (s : List Char) : Option Read := do
  let (call, rest) ← outputCall? (skipBlanks s)
  let rest ← strip? ['}'] (skipBlanks rest)
  closed? closing trimBefore (.output call) rest

/-- Output between three braces with the tildes inside them. -/
def tripleOutput? (s : List Char) : Option Read := do
  let (trimBefore, s) := tilde s
  let (call, rest) ← outputCall? s
  closed? ['}', '}', '}'] trimBefore (.output call) rest

/-- The rest after a comment between double hyphens. -/
def afterLongComment? (s : List Char) : Option (List Char) :=
  match s with
  | [] => none
  | _ :: cs => strip? ['-', '-', '}', '}'] s <|> afterLongComment? cs

/-- The rest after a comment. -/
def afterComment? (s : List Char) : Option (List Char) :=
  match s with
  | [] => none
  | _ :: cs => strip? closing s <|> afterComment? cs

/-- A comment, after its exclamation mark. -/
def commentTag? (s : List Char) : Option Read :=
  let rest := (strip? ['-', '-'] (skipBlanks s)).bind afterLongComment? <|> afterComment? s
  rest.map fun rest => (.comment, false, false, rest)

/-- A tag, after its opening braces. -/
def tag? (s : List Char) : Option Read :=
  match s with
  | '!' :: rest => commentTag? rest
  | s =>
    let (trim, inside) := tilde s
    match opposite? trim inside with
    | some read => some read
    | none =>
      match inside with
      | '{' :: rest =>
        bracedOutput? trim rest <|>
          match s with
          | '{' :: rest => tripleOutput? rest
          | _ => none
      | '&' :: rest => do
        let (call, rest) ← outputCall? (skipBlanks rest)
        closed? closing trim (.output call) rest
      | '#' :: rest => blockTag? trim (skipBlanks rest)
      | '/' :: rest => do
        let (name, rest) ← closeName? (skipBlanks rest)
        closed? closing trim (.close name) rest
      | '*' :: rest => do
        let (call, _, rest) ← line? (skipBlanks rest)
        closed? closing trim (.decorator call) rest
      | '>' :: rest => do
        let (call, rest) ← partialLine? (skipBlanks rest)
        closed? closing trim (.insertion call) rest
      | inside => do
        let (call, rest) ← outputCall? inside
        closed? closing trim (.output call) rest

/-! ## Text

Between tags there is text, in which backslashes may keep braces from being a tag. -/

/-- Text up to the first tag, and the rest. -/
def textRun (stop : List Char) : Nat → List Char → List Char × List Char
  | 0, s => ([], s)
  | fuel + 1, s =>
    let more (front rest : List Char) : List Char × List Char :=
      let (text, rest) := textRun stop fuel rest
      (front ++ text, rest)
    match s with
    | [] => ([], [])
    | '\\' :: rest =>
      let others := rest.takeWhile (· == '\\')
      let after := rest.dropWhile (· == '\\')
      if !startsTag after then more ('\\' :: others) after
      else if others.isEmpty then
        let twice := startsTag (after.drop 2)
        more (after.take (if twice then 4 else 2)) (after.drop (if twice then 4 else 2))
      else more others after
    | c :: rest => if stop.isPrefixOf s then ([], s) else more [c] rest

/-- Four opening braces. -/
def rawOpening : List Char := opening ++ opening

/-- Four closing braces. -/
def rawClosing : List Char := closing ++ closing

/-- A block between four braces: its start, its text and its end.  Blanks at the start of the text
do not count. -/
def rawBlock? (before s : List Char) : Option (List Token × List Char) := do
  let inside ← strip? rawOpening s
  let (trimBefore, inside) := tilde inside
  let (call, names, rest) ← line? inside
  let (start, trimBefore, trimAfter, rest) ← closed? rawClosing trimBefore (.block call names) rest
  let startBefore := before
  let startAfter := rest
  let body := skipBlanks rest
  let (text, rest) := textRun rawOpening body.length body
  let endBefore := (taken s rest).reverse ++ before
  let inside ← strip? rawOpening rest
  let (trim, inside) := tilde inside
  let inside ← strip? ['/'] inside
  let (name, rest) ← identifier? (skipBlanks inside)
  let (close, trim, trimEnd, rest) ← closed? rawClosing trim (.close name) rest
  some ([.tag start trimBefore trimAfter startBefore startAfter, .raw text,
    .tag close trim trimEnd endBefore rest], rest)

/-- The tokens of a text, when `before` is the text before it, reversed. -/
def tokens? : Nat → List Char → List Char → Option (List Token)
  | 0, _, _ => none
  | fuel + 1, before, s =>
    match s with
    | [] => some []
    | s =>
      if !startsTag s then do
        let (text, rest) := textRun opening s.length s
        let later ← tokens? fuel ((taken s rest).reverse ++ before) rest
        some (.text text :: later)
      else
        match (strip? opening s).bind tag? with
        | some (tag, trimBefore, trimAfter, rest) => do
          let later ← tokens? fuel ((taken s rest).reverse ++ before) rest
          some (.tag tag trimBefore trimAfter before rest :: later)
        | none => do
          let (block, rest) ← rawBlock? before s
          let later ← tokens? fuel ((taken s rest).reverse ++ before) rest
          some (block ++ later)

/-- The tokens of a text. -/
def Token.ofText? (s : List Char) : Option (List Token) :=
  tokens? (s.length + 1) [] s

end Template
end Frontispiece
