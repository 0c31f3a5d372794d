import Frontispiece.Decimal.Text
import Frontispiece.Json.Basic

/-!
# Data values as text

`Json.render` writes a value without spaces.  Strings are quoted with the short escapes for
backspace, tab, line feed, form feed and carriage return, four hexadecimal digits for the other
controls, and a backslash before the quote and the backslash; everything else stands for itself.
-/

set_option autoImplicit false

namespace Frontispiece
namespace Json

/-- A hexadecimal digit in lower case. -/
def hexDigit (n : Nat) : Char :=
  if n < 10 then Char.ofNat ('0'.toNat + n) else Char.ofNat ('a'.toNat + (n - 10))

/-- A character inside a quoted string. -/
def escapeChar (c : Char) : List Char :=
  if c == '"' then ['\\', '"']
  else if c == '\\' then ['\\', '\\']
  else if c == '\x08' then ['\\', 'b']
  else if c == '\t' then ['\\', 't']
  else if c == '\n' then ['\\', 'n']
  else if c == '\x0c' then ['\\', 'f']
  else if c == '\r' then ['\\', 'r']
  else if c.toNat < 0x20 then
    ['\\', 'u', '0', '0', hexDigit (c.toNat / 16), hexDigit (c.toNat % 16)]
  else [c]

/-- A quoted string. -/
def quote (s : List Char) : List Char :=
  '"' :: s.flatMap escapeChar ++ ['"']

/-- The text of a number. -/
def numberText : Number → List Char
  | .int n => (toString n).toList
  | .float x _ => (Decimal.Style.data.write x).toList

mutual

/-- The characters of a value. -/
def chars : Json → List Char
  | .null => "null".toList
  | .bool true => "true".toList
  | .bool false => "false".toList
  | .number n => numberText n
  | .string s => quote s.toList
  | .array items => '[' :: itemChars items ++ [']']
  | .object fields => '{' :: fieldChars fields ++ ['}']

/-- Items with commas between them. -/
def itemChars : List Json → List Char
  | [] => []
  | [item] => chars item
  | item :: rest => chars item ++ ',' :: itemChars rest

/-- Fields with commas between them. -/
def fieldChars : List (String × Json) → List Char
  | [] => []
  | [(key, value)] => quote key.toList ++ ':' :: chars value
  | (key, value) :: rest => quote key.toList ++ ':' :: chars value ++ ',' :: fieldChars rest

end

/-- The text of a value. -/
def render (value : Json) : String :=
  String.ofList value.chars

end Json
end Frontispiece
