import Frontispiece.Json.Basic
import Frontispiece.Text.Digits
import Frontispiece.Text.Offset

/-!
# Reading data values

`Json.document?` reads a whole text as one value, `Json.read?` also merges repeated keys.  Arrays
and objects nest at most 127 deep.  A fault names the rest of the text at which reading stopped:

* `Fault.at` stops before the rest, with everything before it consumed;
* `Fault.on` stops on the first character of the rest, of which one byte counts as seen;
* `Fault.within` stops so many bytes into the rest, which may be inside a character.

`Fault.seen` is the number of bytes seen, from which `linePosition` makes a line and a column.

The readers are mutually recursive over a fuel that every call lowers; twice the length of the
text is enough, because two calls never happen without a character being consumed.
-/

set_option autoImplicit false

namespace Frontispiece
namespace Json

/-- Where reading stopped. -/
inductive Fault where
  /-- Before the rest. -/
  | at (rest : List Char)
  /-- On the first character of the rest. -/
  | on (rest : List Char)
  /-- So many bytes into the rest, or at its end. -/
  | within (bytes : Nat) (rest : List Char)

/-- The number of bytes of the text that were seen. -/
def Fault.seen (whole : List Char) : Fault → Nat
  | .at rest => Text.offsetOf whole rest
  | .on rest => min (Text.byteLength whole) (Text.offsetOf whole rest + 1)
  | .within bytes rest => min (Text.byteLength whole) (Text.offsetOf whole rest + bytes)

/-- The four characters that may stand between tokens. -/
def isSpace (c : Char) : Bool :=
  c == ' ' || c == '\n' || c == '\t' || c == '\r'

/-- The text after leading spaces. -/
def skipSpace (s : List Char) : List Char :=
  s.dropWhile isSpace

/-- The rest of a literal after its first character. -/
def literal (value : Json) : List Char → List Char → Except Fault (Json × List Char)
  | [], s => .ok (value, s)
  | _ :: _, [] => .error (.at [])
  | p :: ps, c :: cs => if p == c then literal value ps cs else .error (.on (c :: cs))

/-- Four hexadecimal digits.  Four bytes are taken at once and count as seen, whichever of them is no
digit. -/
def fourHex (s : List Char) : Except Fault (Nat × List Char) :=
  match s with
  | a :: b :: c :: d :: rest =>
    match Text.numeral? 16 [a, b, c, d] with
    | some n => .ok (n, rest)
    | none => .error (.within 4 s)
  | _ => .error (.within 4 s)

/-- The character of an escape `\u`, after the `u`.  Two escapes for a surrogate pair make one
character; a surrogate alone is refused. -/
def unicodeEscape (s : List Char) : Except Fault (Char × List Char) := do
  let (n, rest) ← fourHex s
  if 0xDC00 ≤ n ∧ n ≤ 0xDFFF then .error (.at rest)
  else if n < 0xD800 ∨ 0xDBFF < n then .ok (Char.ofNat n, rest)
  else
    match rest with
    | [] => .error (.at [])
    | '\\' :: rest =>
      match rest with
      | [] => .error (.at [])
      | 'u' :: rest => do
        let (m, rest) ← fourHex rest
        if m < 0xDC00 ∨ 0xDFFF < m then .error (.at rest)
        else .ok (Char.ofNat (0x10000 + (n - 0xD800) * 0x400 + (m - 0xDC00)), rest)
      | rest => .error (.on rest)
    | rest => .error (.on rest)

/-- The character of an escape, after the backslash. -/
def escape : List Char → Except Fault (Char × List Char)
  | [] => .error (.at [])
  | '"' :: rest => .ok ('"', rest)
  | '\\' :: rest => .ok ('\\', rest)
  | '/' :: rest => .ok ('/', rest)
  | 'b' :: rest => .ok ('\x08', rest)
  | 'f' :: rest => .ok ('\x0c', rest)
  | 'n' :: rest => .ok ('\n', rest)
  | 'r' :: rest => .ok ('\r', rest)
  | 't' :: rest => .ok ('\t', rest)
  | 'u' :: rest => unicodeEscape rest
  | rest => .error (.on rest)

/-- The rest of a string after its opening quote, when `read` holds the characters before,
reversed. -/
def stringRest : Nat → List Char → List Char → Except Fault (String × List Char)
  | 0, _, s => .error (.at s)
  | fuel + 1, read, s =>
    match s with
    | [] => .error (.at [])
    | '"' :: rest => .ok (String.ofList read.reverse, rest)
    | '\\' :: rest => do
      let (c, rest) ← escape rest
      stringRest fuel (c :: read) rest
    | c :: rest => if c.toNat < 0x20 then .error (.at rest) else stringRest fuel (c :: read) rest

/-- Digits that go into 64 bits: the value, how many were taken, and the rest, which starts with
the digit that no longer fits if there is one. -/
def fittingDigits (value count : Nat) : List Char → Nat × Nat × List Char
  | [] => (value, count, [])
  | c :: rest =>
    if c.isDigit then
      let next := value * 10 + (c.toNat - '0'.toNat)
      if next < Nat.pow 2 64 then fittingDigits next (count + 1) rest else (value, count, c :: rest)
    else (value, count, c :: rest)

/-- `digits * 10 ^ power` with a sign. -/
def scaledNumber (negative : Bool) (digits : Nat) (power : Int) (rest : List Char) :
    Except Fault (Number × List Char) :=
  match Decimal.scaled? digits power with
  | none => .error (.at rest)
  | some x =>
    match Number.ofFloat? (if negative then -x else x) with
    | none => .error (.at rest)
    | some n => .ok (n, rest)

/-- A number from its exponent on, after the `e`. -/
def exponentPart (negative : Bool) (digits : Nat) (power : Int) (s : List Char) :
    Except Fault (Number × List Char) :=
  let (below, s) :=
    match s with
    | '+' :: s => (false, s)
    | '-' :: s => (true, s)
    | s => (false, s)
  match s with
  | [] => .error (.at [])
  | c :: _ =>
    if !c.isDigit then .error (.on s)
    else
      let exponent := Decimal.digitsValue 0 (s.takeWhile Char.isDigit)
      let after := s.dropWhile Char.isDigit
      if exponent < Nat.pow 2 31 then
        scaledNumber negative digits (if below then power - exponent else power + exponent) after
      else if digits ≠ 0 ∧ !below then .error (.at after)
      else scaledNumber negative 0 0 after

/-- A number after its digits: an exponent, or nothing more. -/
def afterDigits (negative : Bool) (digits : Nat) (power : Int) (s : List Char) :
    Except Fault (Number × List Char) :=
  match s with
  | c :: rest =>
    if c == 'e' || c == 'E' then exponentPart negative digits power rest
    else scaledNumber negative digits power s
  | [] => scaledNumber negative digits power []

/-- A number from its decimal places on, after the point.  Places beyond 64 bits are dropped. -/
def decimalPart (negative : Bool) (digits : Nat) (power : Int) (s : List Char) :
    Except Fault (Number × List Char) :=
  let (digits, count, rest) := fittingDigits digits 0 s
  match rest with
  | c :: _ =>
    if c.isDigit then afterDigits negative digits (power - count) (rest.dropWhile Char.isDigit)
    else if count = 0 then .error (.on rest)
    else afterDigits negative digits (power - count) rest
  | [] => if count = 0 then .error (.on []) else afterDigits negative digits (power - count) []

/-- A number without its sign.  Whole digits beyond 64 bits only move the power. -/
def unsigned (negative : Bool) (s : List Char) : Except Fault (Number × List Char) :=
  match s with
  | [] => .error (.at [])
  | c :: rest =>
    if !c.isDigit then .error (.on s)
    else if c == '0' && (rest.head?.any Char.isDigit) then .error (.on rest)
    else
      let (digits, _, rest) := fittingDigits 0 0 s
      let dropped := rest.takeWhile Char.isDigit
      let after := rest.dropWhile Char.isDigit
      let power : Int := dropped.length
      match after with
      | '.' :: places => decimalPart negative digits power places
      | _ =>
        let isWhole := dropped.isEmpty && !(after.head?.any fun c => c == 'e' || c == 'E')
        if isWhole && !negative then .ok (.int digits, after)
        else if isWhole && digits ≠ 0 && digits ≤ Nat.pow 2 63 then .ok (.int (-(digits : Int)), after)
        else afterDigits negative digits power after

/-- The deepest nesting of arrays and objects. -/
def maxDepth : Nat := 127

mutual

/-- A value, with `depth` more levels of nesting allowed. -/
def value : Nat → Nat → List Char → Except Fault (Json × List Char)
  | 0, _, s => .error (.at s)
  | fuel + 1, depth, s =>
    match skipSpace s with
    | [] => .error (.on [])
    | 'n' :: rest => literal .null ['u', 'l', 'l'] rest
    | 't' :: rest => literal (.bool true) ['r', 'u', 'e'] rest
    | 'f' :: rest => literal (.bool false) ['a', 'l', 's', 'e'] rest
    | '"' :: rest => do
      let (text, rest) ← stringRest (rest.length + 1) [] rest
      .ok (.string text, rest)
    | '-' :: rest => do
      let (n, rest) ← unsigned true rest
      .ok (.number n, rest)
    | '[' :: rest =>
      match depth with
      | 0 => .error (.on ('[' :: rest))
      | depth + 1 => do
        let (items, rest) ← items fuel depth true [] rest
        .ok (.array items, rest)
    | '{' :: rest =>
      match depth with
      | 0 => .error (.on ('{' :: rest))
      | depth + 1 => do
        let (fields, rest) ← fields fuel depth true [] rest
        .ok (.object fields, rest)
    | c :: rest =>
      if c.isDigit then do
        let (n, rest) ← unsigned false (c :: rest)
        .ok (.number n, rest)
      else .error (.on (c :: rest))

/-- The rest of an array, when `read` holds the items before, reversed. -/
def items : Nat → Nat → Bool → List Json → List Char → Except Fault (List Json × List Char)
  | 0, _, _, _, s => .error (.at s)
  | fuel + 1, depth, first, read, s =>
    match skipSpace s with
    | [] => .error (.on [])
    | ']' :: rest => .ok (read.reverse, rest)
    | c :: rest =>
      if first then do
        let (item, rest) ← value fuel depth (c :: rest)
        items fuel depth false (item :: read) rest
      else if c == ',' then
        match skipSpace rest with
        | [] => .error (.on [])
        | ']' :: rest => .error (.on (']' :: rest))
        | rest => do
          let (item, rest) ← value fuel depth rest
          items fuel depth false (item :: read) rest
      else .error (.on (c :: rest))

/-- The rest of an object, when `read` holds the fields before, reversed. -/
def fields : Nat → Nat → Bool → List (String × Json) → List Char →
    Except Fault (List (String × Json) × List Char)
  | 0, _, _, _, s => .error (.at s)
  | fuel + 1, depth, first, read, s =>
    match skipSpace s with
    | [] => .error (.on [])
    | '}' :: rest => .ok (read.reverse, rest)
    | c :: rest =>
      if !first && c != ',' then .error (.on (c :: rest))
      else
        match (if first then c :: rest else skipSpace rest) with
        | '"' :: rest => do
          let (key, rest) ← stringRest (rest.length + 1) [] rest
          match skipSpace rest with
          | ':' :: rest => do
            let (item, rest) ← value fuel depth rest
            fields fuel depth false ((key, item) :: read) rest
          | rest => .error (.on rest)
        | rest => .error (.on rest)

end

/-- The value at the start of a text, repeated keys kept apart, and the rest. -/
def leading? (s : List Char) : Except Fault (Json × List Char) :=
  value (2 * s.length + 2) maxDepth s

/-- Whether nothing but spaces is left. -/
def ended (rest : List Char) : Except Fault Unit :=
  match skipSpace rest with
  | [] => .ok ()
  | rest => .error (.on rest)

/-- The value that a whole text holds, repeated keys kept apart. -/
def document? (s : List Char) : Except Fault Json := do
  let (v, rest) ← leading? s
  ended rest
  .ok v

/-- The value that a whole text holds. -/
def read? (s : List Char) : Except Fault Json :=
  (document? s).map merged

/-- The line and the column after a number of bytes: lines count from one, a column counts the
bytes of its line. -/
def linePosition (line column : Nat) : List Char → Nat → Nat × Nat
  | [], _ => (line, column)
  | c :: rest, n =>
    if n = 0 then (line, column)
    else if c == '\n' then linePosition (line + 1) 0 rest (n - 1)
    else linePosition line (column + min n c.utf8Size) rest (n - c.utf8Size)

end Json
end Frontispiece
