import Frontispiece.Decimal.Read
import Frontispiece.Text.Digits
import Frontispiece.Text.Offset
import Frontispiece.Text.Split
import Frontispiece.Toml.Table

/-!
# Reading a TOML document

`read?` reads a whole document as the fields of its root table.  A reader of a part takes the text
at which the part starts and answers with the value and the rest, or with nothing when the part is
malformed.

Values nest at most `maxDepth` deep, and keys have no more parts than that.  Loops over a text
take its length as fuel.
-/

set_option autoImplicit false

namespace Frontispiece
namespace Toml

/-- Whether a character is a space or a tab. -/
def isBlank (c : Char) : Bool :=
  c == ' ' || c == '\t'

/-- The text after spaces and tabs. -/
def skipBlank (s : List Char) : List Char :=
  s.dropWhile isBlank

/-- Whether a character may stand in a comment or a string as itself. -/
def isVisible (c : Char) : Bool :=
  c == '\t' || (0x20 ≤ c.toNat && c.toNat != 0x7f)

/-- The text after a line end. -/
def lineEnd? : List Char → Option (List Char)
  | '\n' :: rest => some rest
  | '\r' :: '\n' :: rest => some rest
  | _ => none

/-- The text after a comment, if one starts here. -/
def skipComment : List Char → List Char
  | '#' :: rest => rest.dropWhile isVisible
  | s => s

/-- The text after spaces, comments and line ends. -/
def skipLines : Nat → List Char → List Char
  | 0, s => s
  | fuel + 1, s =>
    let s := skipComment (skipBlank s)
    match lineEnd? s with
    | some rest => skipLines fuel rest
    | none => s

/-- The text after the end of a statement: spaces, a comment, and a line end or the end. -/
def statementEnd? (s : List Char) : Option (List Char) :=
  let s := skipComment (skipBlank s)
  if s.isEmpty then some [] else lineEnd? s

/-! ## Strings

A string stands on one line or on several, with escapes between double quotes and without them
between single quotes. -/

/-- A character by its code point, in so many hexadecimal digits. -/
def codePoint? (size : Nat) (s : List Char) : Option (Char × List Char) := do
  let digits := s.take size
  if digits.length < size then none
  else
    let n ← Text.numeral? 16 digits
    if (0xD800 ≤ n ∧ n ≤ 0xDFFF) ∨ 0x10FFFF < n then none else some (Char.ofNat n, s.drop size)

/-- The character of an escape, after the backslash. -/
def escape? : List Char → Option (Char × List Char)
  | 'b' :: rest => some ('\x08', rest)
  | 't' :: rest => some ('\t', rest)
  | 'n' :: rest => some ('\n', rest)
  | 'f' :: rest => some ('\x0c', rest)
  | 'r' :: rest => some ('\r', rest)
  | '"' :: rest => some ('"', rest)
  | '\\' :: rest => some ('\\', rest)
  | 'u' :: rest => codePoint? 4 rest
  | 'U' :: rest => codePoint? 8 rest
  | _ => none

/-- The rest of a string of one line, when `read` holds the characters before, reversed.  A literal
string has no escapes. -/
def lineString (quote : Char) : Nat → List Char → List Char → Option (String × List Char)
  | 0, _, _ => none
  | fuel + 1, read, s =>
    match s with
    | [] => none
    | c :: rest =>
      if c == quote then some (String.ofList read.reverse, rest)
      else if c == '\\' && quote == '"' then do
        let (c, rest) ← escape? rest
        lineString quote fuel (c :: read) rest
      else if isVisible c then lineString quote fuel (c :: read) rest
      else none

/-- The text after spaces and line ends. -/
def skipSpace : Nat → List Char → List Char
  | 0, s => s
  | fuel + 1, s =>
    let s := skipBlank s
    match lineEnd? s with
    | some rest => skipSpace fuel rest
    | none => s

/-- The rest of a string of several lines, when `read` holds the characters before, reversed.  It
ends at three quotes; up to two more before them belong to it. -/
def blockString (quote : Char) : Nat → List Char → List Char → Option (String × List Char)
  | 0, _, _ => none
  | fuel + 1, read, s =>
    match s with
    | [] => none
    | c :: rest =>
      if c == quote then
        let quotes := (s.takeWhile (· == quote)).length
        if quotes < 3 then blockString quote fuel (c :: read) rest
        else
          let extra := min (quotes - 3) 2
          some (String.ofList (List.replicate extra quote ++ read).reverse, s.drop (3 + extra))
      else if c == '\\' && quote == '"' then
        match lineEnd? (skipBlank rest) with
        | some rest => blockString quote fuel read (skipSpace (rest.length + 1) rest)
        | none => do
          let (c, rest) ← escape? rest
          blockString quote fuel (c :: read) rest
      else
        match lineEnd? s with
        | some rest => blockString quote fuel ('\n' :: read) rest
        | none => if isVisible c then blockString quote fuel (c :: read) rest else none

/-- A string, with its opening quote. -/
def string? (s : List Char) : Option (String × List Char) :=
  match s with
  | [] => none
  | quote :: rest =>
    if quote != '"' && quote != '\'' then none
    else if rest.take 2 == [quote, quote] then
      let rest := rest.drop 2
      let rest := (lineEnd? rest).getD rest
      blockString quote (rest.length + 1) [] rest
    else lineString quote (rest.length + 1) [] rest

/-! ## Keys

A key has parts between dots, and each part is bare or a string of one line. -/

/-- Whether a character may stand in a key without quotes. -/
def isKeyChar (c : Char) : Bool :=
  c.isAlphanum || c == '_' || c == '-'

/-- One part of a key. -/
def keyPart? (s : List Char) : Option (String × List Char) :=
  match s with
  | c :: rest =>
    if c == '"' || c == '\'' then lineString c (rest.length + 1) [] rest
    else
      let name := s.takeWhile isKeyChar
      if name.isEmpty then none else some (String.ofList name, s.dropWhile isKeyChar)
  | [] => none

/-- The deepest nesting of arrays and tables inside values, and the most parts of a key. -/
def maxDepth : Nat := 79

/-- A key of parts between dots, of which at most as many as the fuel are read. -/
def key? : Nat → List Char → Option (List String × List Char)
  | 0, _ => none
  | fuel + 1, s => do
    let (part, s) ← keyPart? (skipBlank s)
    match skipBlank s with
    | '.' :: rest => do
      let (parts, s) ← key? fuel rest
      some (part :: parts, s)
    | s => some ([part], s)

/-! ## Numbers and dates

Underscores may stand between the digits of a number, one at a time.  A date or a time is kept as an
object with its normal form, which is how such a value is seen in data. -/

/-- Digits with single underscores between them, the underscores left out. -/
def digits? (isDigit : Char → Bool) : List Char → Option (List Char × List Char)
  | [] => none
  | c :: rest =>
    if !isDigit c then none
    else
      match rest with
      | '_' :: d :: more =>
        if isDigit d then (digits? isDigit (d :: more)).map fun (ds, rest) => (c :: ds, rest)
        else none
      | '_' :: [] => none
      | d :: more =>
        if isDigit d then (digits? isDigit (d :: more)).map fun (ds, rest) => (c :: ds, rest)
        else some ([c], d :: more)
      | [] => some ([c], [])

/-- A whole number in another base, after its prefix. -/
def based? (base : Nat) (isDigit : Char → Bool) (s : List Char) : Option (Json × List Char) := do
  let (ds, rest) ← digits? isDigit s
  let n ← Text.numeral? base ds
  if n < Nat.pow 2 63 then some (Json.int n, rest) else none

/-- The double of a decimal notation; one beyond the range of doubles is refused. -/
def double? (negative : Bool) (digits : List Char) : Option Json := do
  let x ← Decimal.read? digits
  if x.isInf then none else some (Json.ofFloat (if negative then -x else x))

/-- The decimal places at the start of a text, with their point. -/
def places? : List Char → Option (List Char × List Char)
  | '.' :: rest => (digits? Char.isDigit rest).map fun (ds, rest) => ('.' :: ds, rest)
  | s => some ([], s)

/-- The exponent at the start of a text, with its letter. -/
def exponent? : List Char → Option (List Char × List Char)
  | [] => some ([], [])
  | c :: rest =>
    if c == 'e' || c == 'E' then
      let (sign, digits) :=
        match rest with
        | '+' :: rest => (['+'], rest)
        | '-' :: rest => (['-'], rest)
        | rest => ([], rest)
      (digits? Char.isDigit digits).map fun (ds, rest) => ('e' :: sign ++ ds, rest)
    else some ([], c :: rest)

/-- A number without its sign. -/
def unsigned? (negative : Bool) (s : List Char) : Option (Json × List Char) :=
  match s with
  | 'i' :: 'n' :: 'f' :: rest => some (.null, rest)
  | 'n' :: 'a' :: 'n' :: rest => some (.null, rest)
  | _ => do
    let (whole, rest) ← digits? Char.isDigit s
    if whole.head? == some '0' && whole.length > 1 then none
    else
      let (places, rest) ← places? rest
      let (exponent, rest) ← exponent? rest
      if places.isEmpty && exponent.isEmpty then
        let n ← Text.numeral? 10 whole
        if negative then (if n ≤ Nat.pow 2 63 then some (Json.int (-(n : Int)), rest) else none)
        else if n < Nat.pow 2 63 then some (Json.int n, rest)
        else none
      else do
        let value ← double? negative (whole ++ places ++ exponent)
        some (value, rest)

/-- A number. -/
def number? (s : List Char) : Option (Json × List Char) :=
  match s with
  | '0' :: 'x' :: rest =>
    based? 16 Text.isHexDigit rest
  | '0' :: 'o' :: rest => based? 8 (fun c => '0' ≤ c && c ≤ '7') rest
  | '0' :: 'b' :: rest => based? 2 (fun c => c == '0' || c == '1') rest
  | '+' :: rest => unsigned? false rest
  | '-' :: rest => unsigned? true rest
  | s => unsigned? false s

/-- A number of exactly so many digits, within bounds. -/
def fixed? (size least most : Nat) (s : List Char) : Option (Nat × List Char) :=
  let ds := s.take size
  let n := (Text.numeral? 10 ds).getD 0
  if ds.length == size && ds.all Char.isDigit && least ≤ n && n ≤ most then some (n, s.drop size)
  else none

/-- The rest after a character. -/
def after? (c : Char) : List Char → Option (List Char)
  | x :: rest => if x == c then some rest else none
  | [] => none

/-- The number of days of a month. -/
def daysOf (year month : Nat) : Nat :=
  if month = 2 then (if year % 4 = 0 ∧ (year % 100 ≠ 0 ∨ year % 400 = 0) then 29 else 28)
  else if [4, 6, 9, 11].contains month then 30
  else 31

/-- A number in so many digits. -/
def padded (size n : Nat) : String :=
  let s := toString n
  "".pushn '0' (size - s.length) ++ s

/-- A date in its normal form. -/
def date? (s : List Char) : Option (String × List Char) := do
  let (year, s) ← fixed? 4 0 9999 s
  let s ← after? '-' s
  let (month, s) ← fixed? 2 1 12 s
  let s ← after? '-' s
  let (day, s) ← fixed? 2 1 31 s
  if day ≤ daysOf year month then
    some (padded 4 year ++ "-" ++ padded 2 month ++ "-" ++ padded 2 day, s)
  else none

/-- A time of day in its normal form: nine places of a second at most, no zeros at their end. -/
def time? (s : List Char) : Option (String × List Char) := do
  let (hour, s) ← fixed? 2 0 23 s
  let s ← after? ':' s
  let (minute, s) ← fixed? 2 0 59 s
  let s ← after? ':' s
  let (second, s) ← fixed? 2 0 60 s
  let time := padded 2 hour ++ ":" ++ padded 2 minute ++ ":" ++ padded 2 second
  match s with
  | '.' :: rest =>
    let ds := rest.takeWhile Char.isDigit
    if ds.isEmpty then none
    else
      let kept := Text.dropTrailing (· == '0') (ds.take 9)
      let fraction := if kept.isEmpty then "" else "." ++ String.ofList kept
      some (time ++ fraction, rest.dropWhile Char.isDigit)
  | s => some (time, s)

/-- The offset of a time at the start of a text, if there is one. -/
def offset? (s : List Char) : Option (String × List Char) :=
  match s with
  | c :: rest =>
    if c == 'Z' || c == 'z' then some ("Z", rest)
    else if c == '+' || c == '-' then do
      let (hour, rest) ← fixed? 2 0 23 rest
      let rest ← after? ':' rest
      let (minute, rest) ← fixed? 2 0 59 rest
      some (c.toString ++ padded 2 hour ++ ":" ++ padded 2 minute, rest)
    else some ("", s)
  | [] => some ("", s)

/-- A date, a time or both, as the object that stands for it in data. -/
def moment? (s : List Char) : Option (Json × List Char) :=
  let wrap (text : String) : Json := .object [("$__toml_private_datetime", .string text)]
  match date? s with
  | none => (time? s).map fun (time, rest) => (wrap time, rest)
  | some (date, rest) =>
    let timed := rest.head?.any (fun c => c == 'T' || c == 't')
      || (rest.head? == some ' ' && (rest.drop 1).head?.any Char.isDigit)
    if timed then do
      let (time, rest) ← time? (rest.drop 1)
      let (offset, rest) ← offset? rest
      some (wrap (date ++ "T" ++ time ++ offset), rest)
    else some (wrap date, rest)

/-- Whether a date or time starts here, rather than a number. -/
def startsMoment (s : List Char) : Bool :=
  ((s.take 4).length == 4 && (s.take 4).all Char.isDigit && (s.drop 4).head? == some '-')
    || ((s.take 2).length == 2 && (s.take 2).all Char.isDigit && (s.drop 2).head? == some ':')

/-! ## Values

Arrays and tables between braces hold values again, down to a depth that is counted on the way. -/

mutual

/-- A value, with `depth` more levels of nesting allowed. -/
def value? : Nat → Nat → List Char → Option (Json × List Char)
  | 0, _, _ => none
  | fuel + 1, depth, s =>
    match s with
    | [] => none
    | c :: rest =>
      if c == '"' || c == '\'' then (string? s).map fun (text, rest) => (.string text, rest)
      else if c == '[' then
        match depth with
        | 0 => none
        | depth + 1 => do
          let (items, rest) ← items? fuel depth rest
          some (.array items, rest)
      else if c == '{' then
        match depth with
        | 0 => none
        | depth + 1 =>
          match skipBlank rest with
          | '}' :: rest => some (.object [], rest)
          | rest => do
            let (fields, rest) ← pairs? fuel depth [] rest
            some (.object (Item.fieldsToJson fields), rest)
      else if startsMoment s then moment? s
      else
        match Text.dropLead? "true".toList s, Text.dropLead? "false".toList s with
        | some rest, _ => some (.bool true, rest)
        | none, some rest => some (.bool false, rest)
        | none, none => number? s

/-- The items of an array after its bracket, and its end. -/
def items? : Nat → Nat → List Char → Option (List Json × List Char)
  | 0, _, _ => none
  | fuel + 1, depth, s =>
    match skipLines (s.length + 1) s with
    | ']' :: rest => some ([], rest)
    | s => do
      let (item, s) ← value? fuel depth s
      match skipLines (s.length + 1) s with
      | ']' :: rest => some ([item], rest)
      | ',' :: rest => do
        let (items, rest) ← items? fuel depth rest
        some (item :: items, rest)
      | _ => none

/-- The pairs of a table between braces, and its end. -/
def pairs? : Nat → Nat → Fields Item → List Char → Option (Fields Item × List Char)
  | 0, _, _, _ => none
  | fuel + 1, depth, read, s => do
    let (path, s) ← key? maxDepth s
    match path.getLast?, s with
    | some key, '=' :: rest => do
      let (v, s) ← value? fuel depth (skipBlank rest)
      let read ← assign read path.dropLast key (.value v)
      match skipBlank s with
      | '}' :: rest => some (read, rest)
      | ',' :: rest => pairs? fuel depth read rest
      | _ => none
    | _, _ => none

end

/-! ## Documents

A document is read statement by statement.  A header opens a table, which is closed and put into the
document when the next header comes, or at the end. -/

/-- A header that is open. -/
structure Header where
  path : List String
  key : String
  inList : Bool

/-- What has been read: the tables that are closed, the header that is open, and its fields. -/
structure Progress where
  root : Fields Item
  header : Option Header
  fields : Fields Item

namespace Progress

/-- The document when its open table is closed. -/
def close (p : Progress) : Option (Fields Item) :=
  match p.header with
  | none => some p.fields
  | some h => closeTable p.root h.path h.key h.inList p.fields

/-- A header opened. -/
def enter (p : Progress) (h : Header) : Option Progress := do
  let root ← p.close
  if h.inList then do
    let root ← openTables root h.path h.key
    some ⟨root, some h, []⟩
  else do
    let (present, root) ← openTable root h.path h.key
    some ⟨root, some h, present⟩

end Progress

/-- The header at the start of a text, after its brackets, up to its closing brackets. -/
def header? (inList : Bool) (s : List Char) : Option (Header × List Char) := do
  let (path, s) ← key? maxDepth s
  let key ← path.getLast?
  let rest ← Text.dropLead? (if inList then [']', ']'] else [']']) s
  some (⟨path.dropLast, key, inList⟩, rest)

/-- The statements of a document. -/
def statements : Nat → Progress → List Char → Option (Fields Item)
  | 0, _, _ => none
  | fuel + 1, p, s =>
    match skipLines (s.length + 1) s with
    | [] => p.close
    | '[' :: '[' :: rest => do
      let (h, rest) ← header? true rest
      let p ← p.enter h
      statements fuel p (← statementEnd? rest)
    | '[' :: rest => do
      let (h, rest) ← header? false rest
      let p ← p.enter h
      statements fuel p (← statementEnd? rest)
    | s => do
      let (path, s) ← key? maxDepth s
      let key ← path.getLast?
      let s ← after? '=' s
      let (v, s) ← value? (2 * s.length + 2) maxDepth (skipBlank s)
      let fields ← assign p.fields path.dropLast key (.value v)
      statements fuel { p with fields } (← statementEnd? s)

/-- The fields of a document. -/
def read? (s : List Char) : Option (Fields Json) :=
  let s :=
    match s with
    | '\ufeff' :: rest => rest
    | s => s
  (statements (s.length + 1) ⟨[], none, []⟩ s).map Item.fieldsToJson

end Toml
end Frontispiece
