import Frontispiece.Yaml.Scalar

/-!
# Tokens of a YAML text

`tokens?` cuts a text into tokens.  Indentation becomes tokens of its own: a block collection is
opened by the first entry that stands deeper than the block around it, and closed by the first
line that stands less deep.

A key of a mapping is only known as one when the colon after it is met.  So every token that could
start a key is remembered as a *candidate*, one for each level of flow collections; when the colon
comes, the key token is put in before it.  A candidate is given up at the end of its line or after
1024 characters; one that had to be a key, because it stands where the entries of a block mapping
start, makes the text malformed.
-/

set_option autoImplicit false

namespace Frontispiece
namespace Yaml

/-- A token. -/
inductive Token where
  | version (major minor : Nat)
  | tagHandle (handle start : String)
  | documentStart
  | documentEnd
  | blockSequenceStart
  | blockMappingStart
  | blockEnd
  | flowSequenceStart
  | flowSequenceEnd
  | flowMappingStart
  | flowMappingEnd
  | entry
  | flowEntry
  | key
  | value
  | alias (name : String)
  | anchor (name : String)
  | tag (handle suffix : String)
  | scalar (text : String) (plain : Bool)
  deriving DecidableEq, Repr

/-- A token that may turn out to be a key. -/
structure Candidate where
  required : Bool
  /-- The number of tokens before it. -/
  place : Nat
  index : Nat
  line : Nat
  column : Nat

/-- The state between two tokens. -/
structure Scan where
  cursor : Cursor
  tokens : Array Token
  /-- The column of the innermost block collection, `-1` outside all. -/
  indent : Int
  /-- The columns of the block collections around it. -/
  outer : List Int
  /-- Whether a key may start here. -/
  keyAllowed : Bool
  /-- The candidate of the innermost flow level, and those of the levels around it. -/
  candidate : Option Candidate
  around : List (Option Candidate)

namespace Scan

/-- Whether the cursor is inside a flow collection. -/
def inFlow (s : Scan) : Bool :=
  !s.around.isEmpty

/-- One more token. -/
def push (s : Scan) (t : Token) : Scan :=
  { s with tokens := s.tokens.push t }

/-- The candidate of this level given up, unless it had to be a key. -/
def dropCandidate (s : Scan) : Option Scan :=
  match s.candidate with
  | some k => if k.required then none else some { s with candidate := none }
  | none => some s

/-- Whether a candidate is out of reach of the cursor. -/
def outOfReach (c : Cursor) (k : Candidate) : Bool :=
  k.line < c.line || k.index + 1024 < c.index

/-- A candidate that is out of reach given up. -/
def expire (c : Cursor) (k : Option Candidate) : Option (Option Candidate) :=
  match k with
  | some k => if outOfReach c k then (if k.required then none else some none) else some (some k)
  | none => some none

/-- The candidates of all levels that are out of reach given up. -/
def expireAll (s : Scan) : Option Scan := do
  let candidate ← expire s.cursor s.candidate
  let around ← s.around.mapM (expire s.cursor)
  some { s with candidate, around }

/-- The token to come remembered as a candidate, if a key may start here. -/
def offerKey (s : Scan) : Option Scan :=
  if s.keyAllowed then do
    let s ← s.dropCandidate
    let c := s.cursor
    let required := !s.inFlow && s.indent == (c.column : Int)
    some { s with candidate := some ⟨required, s.tokens.size, c.index, c.line, c.column⟩ }
  else some s

/-- A block collection opened at a column deeper than the one around it, its token put in at a
place. -/
def openBlock (s : Scan) (column : Nat) (place : Nat) (t : Token) : Scan :=
  if !s.inFlow && s.indent < (column : Int) then
    { s with
      outer := s.indent :: s.outer
      indent := column
      tokens := (s.tokens.toList.take place ++ t :: s.tokens.toList.drop place).toArray }
  else s

/-- The block collections deeper than a column closed. -/
def closeBlocks (column : Int) : List Int → Scan → Scan
  | [], s => s
  | outer :: more, s =>
    if s.indent > column then
      closeBlocks column more { (s.push .blockEnd) with indent := outer, outer := more }
    else s

/-- The block collections deeper than a column closed, outside flow collections. -/
def unwind (s : Scan) (column : Int) : Scan :=
  if s.inFlow then s else closeBlocks column s.outer s

/-- The cursor at the next token: blanks, comments and line ends passed. -/
def skipToToken : Nat → Scan → Scan
  | 0, s => s
  | fuel + 1, s =>
    let tabs := s.inFlow || !s.keyAllowed
    let c := s.cursor.skipWhile fun x => x == ' ' || (tabs && x == '\t')
    let c := if c.starts '#' then c.skipWhile (!isBreak ·) else c
    if c.sees isBreak then
      skipToToken fuel
        { s with cursor := c.readLine.2, keyAllowed := s.keyAllowed || !s.inFlow }
    else { s with cursor := c }

/-! ## Directives, anchors and tags

These name things for the parser, and each of them starts with an indicator of its own.  A tag may
be written with escapes, which are resolved here. -/

/-- Whether a character may stand in a tag. -/
def isTagChar (whole : Bool) (c : Char) : Bool :=
  isNameChar c || ";/?:@&=+$.%!~*'()".toList.contains c || (whole && ",[]".toList.contains c)

/-- The bytes of escapes `%xx` at the start of a text, and the rest. -/
def tagEscapes : Nat → List UInt8 → List Char → Option (List UInt8 × List Char)
  | 0, read, s => some (read, s)
  | fuel + 1, read, s =>
    match s with
    | '%' :: a :: b :: rest => do
      let n ← Text.numeral? 16 [a, b]
      tagEscapes fuel (read ++ [UInt8.ofNat n]) rest
    | '%' :: _ => none
    | s => some (read, s)

/-- The text of a tag with its escapes resolved. -/
def tagText? : Nat → List Char → Option (List Char)
  | 0, _ => none
  | fuel + 1, s =>
    match s with
    | [] => some []
    | '%' :: _ => do
      let (bytes, rest) ← tagEscapes (s.length + 1) [] s
      let text ← String.fromUTF8? ⟨bytes.toArray⟩
      let rest ← tagText? fuel rest
      some (text.toList ++ rest)
    | c :: rest => (tagText? fuel rest).map (c :: ·)

/-- The text of a tag at the cursor. -/
def readTagText (whole : Bool) (c : Cursor) : Option (List Char × Cursor) := do
  let (taken, c) := c.takeWhile (isTagChar whole)
  let text ← tagText? (taken.length + 1) taken
  some (text, c)

/-- A tag handle: an exclamation mark, or a name between two.  Outside directives the second may
be missing. -/
def readHandle (directive : Bool) (c : Cursor) : Option (List Char × Cursor) :=
  if !c.starts '!' then none
  else
    let (name, c) := (c.advance 1).takeWhile isNameChar
    if c.starts '!' then some ('!' :: name ++ ['!'], c.advance 1)
    else if directive && !name.isEmpty then none
    else some ('!' :: name, c)

/-- A tag, with the cursor at its exclamation mark. -/
def readTag (inFlow : Bool) (c : Cursor) : Option (Token × Cursor) := do
  let (token, c) ←
    if (c.advance 1).starts '<' then do
      let (suffix, c) ← readTagText true (c.advance 2)
      if suffix.isEmpty || !c.starts '>' then none
      else some (Token.tag "" (String.ofList suffix), c.advance 1)
    else do
      let (handle, c) ← readHandle false c
      if handle.length > 1 && handle.getLast? == some '!' then do
        let (suffix, c) ← readTagText false c
        if suffix.isEmpty then none
        else some (Token.tag (String.ofList handle) (String.ofList suffix), c)
      else do
        let (suffix, c) ← readTagText false c
        let suffix := handle.drop 1 ++ suffix
        if suffix.isEmpty then some (Token.tag "" "!", c)
        else some (Token.tag "!" (String.ofList suffix), c)
  if (inFlow && c.starts ',') || c.blankAt 0 then some (token, c) else none

/-- The name of an anchor or alias, with the cursor at its indicator. -/
def readName (c : Cursor) : Option (String × Cursor) :=
  let (name, c) := (c.advance 1).takeWhile isNameChar
  if name.isEmpty then none
  else if c.blankAt 0 || c.sees fun x => "?:,]\x7d%@\x60".toList.contains x then
    some (String.ofList name, c)
  else none

/-- A version number. -/
def readNumber (c : Cursor) : Option (Nat × Cursor) :=
  let (digits, c) := c.takeWhile Char.isDigit
  if 9 < digits.length then none else (Text.numeral? 10 digits).map (·, c)

/-- A directive, with the cursor at its percent sign. -/
def readDirective (c : Cursor) : Option (Token × Cursor) := do
  let (name, c) := (c.advance 1).takeWhile isNameChar
  if name.isEmpty || !c.blankAt 0 then none
  else
    let c := c.skipWhile isBlank
    let (token, c) ←
      if name == "YAML".toList then do
        let (major, c) ← readNumber c
        if !c.starts '.' then none
        else do
          let (minor, c) ← readNumber (c.advance 1)
          some (Token.version major minor, c)
      else if name == "TAG".toList then do
        let (handle, c) ← readHandle true c
        if !c.sees isBlank then none
        else do
          let (text, c) ← readTagText true (c.skipWhile isBlank)
          if text.isEmpty || !c.blankAt 0 then none
          else some (Token.tagHandle (String.ofList handle) (String.ofList text), c)
      else none
    let c := c.skipWhile isBlank
    let c := if c.starts '#' then c.skipWhile (!isBreak ·) else c
    if c.atLineEnd then some (token, c.readLine.2) else none

/-! ## One token

The character at the cursor says which token comes next.  Some indicators are such only before a
blank, and inside a flow collection more characters are. -/

/-- A token of one character that opens a flow collection. -/
def openFlow (s : Scan) (t : Token) : Option Scan := do
  let s ← s.offerKey
  some { (s.push t) with
    around := s.candidate :: s.around
    candidate := none
    keyAllowed := true
    cursor := s.cursor.advance 1 }

/-- A token of one character that closes a flow collection. -/
def closeFlow (s : Scan) (t : Token) : Option Scan := do
  let s ← s.dropCandidate
  let s :=
    match s.around with
    | candidate :: around => { s with candidate, around }
    | [] => s
  some { (s.push t) with keyAllowed := false, cursor := s.cursor.advance 1 }

/-- An indicator of one character after which a key may start. -/
def indicator (s : Scan) (keyAllowed : Bool) (t : Token) : Scan :=
  { (s.push t) with keyAllowed, cursor := s.cursor.advance 1 }

/-- The dash of an entry of a block sequence. -/
def blockEntry (s : Scan) : Option Scan :=
  if !s.inFlow && !s.keyAllowed then none
  else do
    let s := s.openBlock s.cursor.column s.tokens.size .blockSequenceStart
    let s ← s.dropCandidate
    some (s.indicator true .entry)

/-- The question mark before a key. -/
def explicitKey (s : Scan) : Option Scan :=
  if !s.inFlow && !s.keyAllowed then none
  else do
    let s := s.openBlock s.cursor.column s.tokens.size .blockMappingStart
    let s ← s.dropCandidate
    some (s.indicator (!s.inFlow) .key)

/-- The colon before a value. -/
def keyValue (s : Scan) : Option Scan :=
  match s.candidate with
  | some k =>
    let tokens := s.tokens.toList
    let s := { s with
      tokens := (tokens.take k.place ++ Token.key :: tokens.drop k.place).toArray
      candidate := none }
    let s := s.openBlock k.column k.place .blockMappingStart
    some (s.indicator false .value)
  | none =>
    if !s.inFlow && !s.keyAllowed then none
    else
      let s := s.openBlock s.cursor.column s.tokens.size .blockMappingStart
      some (s.indicator (!s.inFlow) .value)

/-- A token that may be a key, read by a reader of its own. -/
def keyLike (s : Scan) (read : Cursor → Option (Token × Cursor)) : Option Scan := do
  let s ← s.offerKey
  let (t, c) ← read s.cursor
  some { (s.push t) with keyAllowed := false, cursor := c }

/-- A token that starts a line of its own: all blocks end before it. -/
def boundary (s : Scan) (read : Cursor → Option (Token × Cursor)) : Option Scan := do
  let s ← (s.unwind (-1)).dropCandidate
  let (t, c) ← read s.cursor
  some { (s.push t) with keyAllowed := false, cursor := c }

/-- A plain scalar. -/
def plainScalar (s : Scan) : Option Scan := do
  let s ← s.offerKey
  let (text, broken, c) ← readPlain s.inFlow (s.indent + 1).toNat s.cursor
  some { (s.push (.scalar (String.ofList text) true)) with keyAllowed := broken, cursor := c }

/-- A block scalar. -/
def blockScalar (s : Scan) (literal : Bool) : Option Scan := do
  let s ← s.dropCandidate
  let (text, c) ← readBlock literal s.indent s.cursor
  some { (s.push (.scalar (String.ofList text) false)) with keyAllowed := true, cursor := c }

/-- Whether a plain scalar may start with a character that is an indicator only before a
blank. -/
def plainStart (s : Scan) (x : Char) : Bool :=
  (x == '-' && !(s.cursor.rest.drop 1).head?.any isBlank)
    || (!s.inFlow && (x == '?' || x == ':') && !s.cursor.blankAt 1)

/-- The next token, at a character that starts one. -/
def nextToken (s : Scan) (x : Char) : Option Scan :=
  let c := s.cursor
  let quoted (single : Bool) : Option Scan :=
    s.keyLike fun c =>
      (readQuoted single c).map fun (text, c) => (.scalar (String.ofList text) false, c)
  if c.column == 0 && x == '%' then s.boundary readDirective
  else if c.atMark '-' then s.boundary fun c => some (.documentStart, c.advance 3)
  else if c.atMark '.' then s.boundary fun c => some (.documentEnd, c.advance 3)
  else if x == '[' then s.openFlow .flowSequenceStart
  else if x == '{' then s.openFlow .flowMappingStart
  else if x == ']' then s.closeFlow .flowSequenceEnd
  else if x == '}' then s.closeFlow .flowMappingEnd
  else if x == ',' then s.dropCandidate.map (indicator · true .flowEntry)
  else if x == '-' && c.blankAt 1 then s.blockEntry
  else if x == '?' && (s.inFlow || c.blankAt 1) then s.explicitKey
  else if x == ':' && (s.inFlow || c.blankAt 1) then s.keyValue
  else if x == '*' then s.keyLike fun c => (readName c).map fun (n, c) => (.alias n, c)
  else if x == '&' then s.keyLike fun c => (readName c).map fun (n, c) => (.anchor n, c)
  else if x == '!' then s.keyLike (readTag s.inFlow)
  else if x == '|' && !s.inFlow then s.blockScalar true
  else if x == '>' && !s.inFlow then s.blockScalar false
  else if x == '\'' then quoted true
  else if x == '"' then quoted false
  else if s.plainStart x then s.plainScalar
  else if isBlank x || isBreak x || "-?:,[]\x7b\x7d#&*!|>'\"%@\x60".toList.contains x then none
  else s.plainScalar

/-- All tokens from a state on. -/
def run : Nat → Scan → Option (List Token)
  | 0, _ => none
  | fuel + 1, s => do
    let s := skipToToken (s.cursor.rest.length + 1) s
    let s ← s.expireAll
    let s := s.unwind s.cursor.column
    match s.cursor.rest with
    | [] =>
      let s ← (s.unwind (-1)).dropCandidate
      some s.tokens.toList
    | x :: _ => do
      let s ← s.nextToken x
      run fuel s

end Scan

/-- Whether a character may stand in a text at all. -/
def isPrintable (c : Char) : Bool :=
  let n := c.toNat
  n == 0x09 || n == 0x0a || n == 0x0d || (0x20 ≤ n && n ≤ 0x7e) || n == 0x85
    || (0xa0 ≤ n && n ≤ 0xd7ff) || (0xe000 ≤ n && n ≤ 0xfffd) || 0x10000 ≤ n

/-- The text without byte order marks at its start, of which there may be two. -/
def dropMarks : List Char → List Char
  | '\ufeff' :: '\ufeff' :: rest => rest
  | '\ufeff' :: rest => rest
  | s => s

/-- The tokens of a text. -/
def tokens? (s : List Char) : Option (List Token) :=
  let s := dropMarks s
  if s.all isPrintable then
    Scan.run (s.length + 2) ⟨⟨s, 0, 0, 0⟩, #[], -1, [], true, none, []⟩
  else none

end Yaml
end Frontispiece
