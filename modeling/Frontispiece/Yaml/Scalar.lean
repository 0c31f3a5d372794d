import Frontispiece.Text.Digits
import Frontispiece.Yaml.Cursor

/-!
# Scalars of a YAML text

There are plain scalars, two kinds of quoted scalars, and two kinds of block scalars.  Line ends
inside the first three fold: one line end becomes a space, of several the first is dropped.

Each reader takes the cursor at the scalar, answers with the text and the cursor after it, and
with nothing when the scalar is malformed.  Loops take the length of the rest as fuel.
-/

set_option autoImplicit false

namespace Frontispiece
namespace Yaml

/-- What stands between two pieces of text on a line or on several lines: either blanks of one
line, or a first line end and those that follow it. -/
structure Gap where
  blanks : List Char
  broken : Bool
  first : List Char
  more : List Char

/-- No gap. -/
def Gap.none : Gap := ⟨[], false, [], []⟩

/-- The text that a gap folds into. -/
def Gap.folded (g : Gap) : List Char :=
  if g.broken then
    if g.first == ['\n'] then (if g.more.isEmpty then [' '] else g.more) else g.first ++ g.more
  else g.blanks

/-- The gap of blanks and line ends at a cursor.  With a least column given, a tab before it on a
further line is refused. -/
def readGap (least : Option Nat) : Nat → Gap → Cursor → Option (Gap × Cursor)
  | 0, g, c => some (g, c)
  | fuel + 1, g, c =>
    match c.rest with
    | [] => some (g, c)
    | x :: _ =>
      if isBlank x then
        if g.broken then
          if x == '\t' && least.any (c.column < ·) then Option.none
          else readGap least fuel g (c.advance 1)
        else readGap least fuel { g with blanks := g.blanks ++ [x] } (c.advance 1)
      else if isBreak x then
        let (line, c) := c.readLine
        if g.broken then readGap least fuel { g with more := g.more ++ line } c
        else readGap least fuel ⟨[], true, line, g.more⟩ c
      else some (g, c)

/-! ## Plain scalars

A plain scalar has no quotes, so that it ends where something else may start.  The gap before its
next word is read first, and belongs to it only if that word does. -/

/-- Whether the characters at a cursor end a plain scalar. -/
def endsPlain (inFlow : Bool) (rest : List Char) : Bool :=
  match rest with
  | [] => true
  | x :: after =>
    isBlank x || isBreak x
      || (x == ':' && after.head?.all fun y => isBlank y || isBreak y)
      || (inFlow && (x == ',' || x == '[' || x == ']' || x == '{' || x == '}'))

/-- Whether a colon at a cursor may not stand in a plain scalar of a flow collection. -/
def straysPlain (inFlow : Bool) (rest : List Char) : Bool :=
  inFlow &&
    match rest with
    | ':' :: x :: _ => [',', '?', '[', ']', '{', '}'].contains x
    | _ => false

/-- The characters of a plain scalar up to the next blank, line end or end, reversed on top of
those before. -/
def plainWord (inFlow : Bool) : Nat → List Char → Cursor → Option (List Char × Cursor)
  | 0, read, c => some (read, c)
  | fuel + 1, read, c =>
    if straysPlain inFlow c.rest then Option.none
    else if endsPlain inFlow c.rest then some (read, c)
    else
      match c.rest with
      | x :: _ => plainWord inFlow fuel (x :: read) (c.advance 1)
      | [] => some (read, c)

/-- A plain scalar from the gap before its next word on.  The result also tells whether the
scalar was followed by a line end. -/
def plainRest (inFlow : Bool) (indent : Nat) :
    Nat → List Char → Gap → Cursor → Option (List Char × Bool × Cursor)
  | 0, read, g, c => some (read, g.broken, c)
  | fuel + 1, read, g, c =>
    if c.atDocumentMark || c.starts '#' then some (read, g.broken, c)
    else do
      let starts := endsPlain inFlow c.rest
      let stray := straysPlain inFlow c.rest
      if stray then Option.none
      else
        let (read, g, c) ←
          if starts then some (read, g, c)
          else do
            let (read, c) ← plainWord inFlow (c.rest.length + 1) (g.folded.reverse ++ read) c
            some (read, Gap.none, c)
        if !c.sees (fun x => isBlank x || isBreak x) then some (read, g.broken, c)
        else
          let (g, c) ← readGap (some indent) (c.rest.length + 1) g c
          if !inFlow && c.column < indent then some (read, g.broken, c)
          else plainRest inFlow indent fuel read g c

/-- A plain scalar whose further lines stand at `indent` or deeper. -/
def readPlain (inFlow : Bool) (indent : Nat) (c : Cursor) : Option (List Char × Bool × Cursor) :=
  (plainRest inFlow indent (c.rest.length + 1) [] Gap.none c).map fun (read, broken, c) =>
    (read.reverse, broken, c)

/-! ## Quoted scalars

Between quotes a line end and the blanks around it stand for a space, or for the blank lines in it..
Only double quotes have escapes. -/

/-- A character by its code point, in so many hexadecimal digits. -/
def codeEscape? (size : Nat) (c : Cursor) : Option (Char × Cursor) := do
  let digits := c.rest.take size
  if digits.length < size then Option.none
  else
    let n ← Text.numeral? 16 digits
    if (0xD800 ≤ n ∧ n ≤ 0xDFFF) ∨ 0x10FFFF < n then Option.none
    else some (Char.ofNat n, c.advance size)

/-- The character of an escape, with the cursor after the backslash. -/
def readEscape (c : Cursor) : Option (Char × Cursor) :=
  let one (x : Char) : Option (Char × Cursor) := some (x, c.advance 1)
  match c.rest with
  | [] => Option.none
  | x :: _ =>
    match x with
    | '0' => one '\x00'
    | 'a' => one '\x07'
    | 'b' => one '\x08'
    | 't' => one '\t'
    | '\t' => one '\t'
    | 'n' => one '\n'
    | 'v' => one '\x0b'
    | 'f' => one '\x0c'
    | 'r' => one '\r'
    | 'e' => one '\x1b'
    | ' ' => one ' '
    | '"' => one '"'
    | '/' => one '/'
    | '\\' => one '\\'
    | 'N' => one '\u0085'
    | '_' => one '\u00a0'
    | 'L' => one '\u2028'
    | 'P' => one '\u2029'
    | 'x' => codeEscape? 2 (c.advance 1)
    | 'u' => codeEscape? 4 (c.advance 1)
    | 'U' => codeEscape? 8 (c.advance 1)
    | _ => Option.none

/-- The characters of a quoted scalar up to the next blank, line end or closing quote, reversed on
top of those before.  The result tells whether an escaped line end was read. -/
def quotedWord (single : Bool) : Nat → List Char → Cursor → Option (List Char × Bool × Cursor)
  | 0, _, _ => Option.none
  | fuel + 1, read, c =>
    match c.rest with
    | [] => some (read, false, c)
    | x :: after =>
      if isBlank x || isBreak x then some (read, false, c)
      else if single then
        if x == '\'' then
          if after.head? == some '\'' then quotedWord single fuel ('\'' :: read) (c.advance 2)
          else some (read, false, c)
        else quotedWord single fuel (x :: read) (c.advance 1)
      else if x == '"' then some (read, false, c)
      else if x == '\\' then
        if after.head?.any isBreak then some (read, true, ((c.advance 1).readLine).2)
        else do
          let (x, c) ← readEscape (c.advance 1)
          quotedWord single fuel (x :: read) c
      else quotedWord single fuel (x :: read) (c.advance 1)

/-- A quoted scalar after its opening quote, when `read` holds the characters before, reversed. -/
def quotedRest (single : Bool) : Nat → List Char → Cursor → Option (List Char × Cursor)
  | 0, _, _ => Option.none
  | fuel + 1, read, c =>
    if c.atDocumentMark || c.rest.isEmpty then Option.none
    else do
      let (read, escaped, c) ← quotedWord single (c.rest.length + 1) read c
      if c.starts (if single then '\'' else '"') then some (read, c.advance 1)
      else
        let (g, c) ← readGap Option.none (c.rest.length + 1) ⟨[], escaped, [], []⟩ c
        quotedRest single fuel (g.folded.reverse ++ read) c

/-- A quoted scalar, with the cursor at its opening quote. -/
def readQuoted (single : Bool) (c : Cursor) : Option (List Char × Cursor) :=
  (quotedRest single (c.rest.length + 1) [] (c.advance 1)).map fun (read, c) => (read.reverse, c)

/-! ## Block scalars

A header says how the lines below it are put together.  Unless it gives their indentation, the first
line with text does. -/

/-- What a block scalar does with the line ends after its last line. -/
inductive Chomping where
  | strip
  | clip
  | keep
  deriving DecidableEq

/-- The line ends and indentation before a line of a block scalar, with the deepest column
reached.  The indentation is not known yet when it is zero. -/
def blockBreaks (indent : Nat) : Nat → Nat → List Char → Cursor → Option (Nat × List Char × Cursor)
  | 0, deepest, read, c => some (deepest, read, c)
  | fuel + 1, deepest, read, c =>
    let wanted := if indent = 0 then c.rest.length else indent - c.column
    let spaces := ((c.rest.take wanted).takeWhile (· == ' ')).length
    let c := c.advance spaces
    let deepest := max deepest c.column
    if (indent = 0 || c.column < indent) && c.starts '\t' then Option.none
    else if c.sees isBreak then
      let (line, c) := c.readLine
      blockBreaks indent fuel deepest (read ++ line) c
    else some (deepest, read, c)

/-- The line ends before a line of a block scalar, and the indentation, which the first line
with text settles when the header does not. -/
def readBlockBreaks (outer : Int) (indent : Nat) (c : Cursor) :
    Option (Nat × List Char × Cursor) := do
  let (deepest, read, c) ← blockBreaks indent (c.rest.length + 1) 0 [] c
  let indent := if indent = 0 then max (max deepest (outer + 1).toNat) 1 else indent
  some (indent, read, c)

/-- The lines of a block scalar.  `leading` is the line end before the cursor, `trailing` those
after it; `wasBlank` tells whether the line before started with a blank. -/
def blockLines (outer : Int) (literal : Bool) (indent : Nat) :
    Nat → Bool → List Char → List Char → List Char → Cursor →
      Option (List Char × List Char × List Char × Cursor)
  | 0, _, text, leading, trailing, c => some (text, leading, trailing, c)
  | fuel + 1, wasBlank, text, leading, trailing, c =>
    if c.column != indent || c.rest.isEmpty then some (text, leading, trailing, c)
    else do
      let startsBlank := c.sees isBlank
      let folds := !literal && leading.head? == some '\n' && !wasBlank && !startsBlank
      let joint :=
        if folds then (if trailing.isEmpty then [' '] else [])
        else leading
      let (line, c) := c.takeWhile (!isBreak ·)
      let (leading, c) := c.readLine
      let joined := text ++ joint ++ trailing ++ line
      let (_, trailing, c) ← readBlockBreaks outer indent c
      blockLines outer literal indent fuel startsBlank joined leading trailing c

/-- The header of a block scalar after its indicator: the chomping and the indentation, in either
order. -/
def blockHeader (c : Cursor) : Option (Chomping × Nat × Cursor) :=
  let chomping? (c : Cursor) : Option Chomping :=
    if c.starts '+' then some .keep else if c.starts '-' then some .strip else Option.none
  let digit? (c : Cursor) : Option Nat :=
    (c.rest.head?.filter Char.isDigit).map fun x => x.toNat - '0'.toNat
  match chomping? c with
  | some chomping =>
    let c := c.advance 1
    match digit? c with
    | some 0 => Option.none
    | some n => some (chomping, n, c.advance 1)
    | Option.none => some (chomping, 0, c)
  | Option.none =>
    match digit? c with
    | some 0 => Option.none
    | some n =>
      let c := c.advance 1
      match chomping? c with
      | some chomping => some (chomping, n, c.advance 1)
      | Option.none => some (.clip, n, c)
    | Option.none => some (.clip, 0, c)

/-- A block scalar inside a block at the column `outer`, with the cursor at its indicator. -/
def readBlock (literal : Bool) (outer : Int) (c : Cursor) : Option (List Char × Cursor) := do
  let (chomping, increment, c) ← blockHeader (c.advance 1)
  let c := c.skipWhile isBlank
  let c := if c.starts '#' then c.skipWhile (!isBreak ·) else c
  if !c.atLineEnd then Option.none
  else
    let c := c.readLine.2
    let indent := if increment = 0 then 0 else (max outer 0).toNat + increment
    let (indent, trailing, c) ← readBlockBreaks outer indent c
    let (text, leading, trailing, c) ←
      blockLines outer literal indent (c.rest.length + 1) false [] [] trailing c
    some (match chomping with
      | .strip => (text, c)
      | .clip => (text ++ leading, c)
      | .keep => (text ++ leading ++ trailing, c))

end Yaml
end Frontispiece
