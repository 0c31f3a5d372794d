import Frontispiece.Markdown.EntityNames
import Frontispiece.Text.Digits
import Frontispiece.Text.Punctuation
import Frontispiece.Text.Split

/-!
# Escapes and character references

In most places of a Markdown text a backslash before ASCII punctuation makes that character plain,
and a character reference stands for the characters that it names.  `unescape` resolves both.

A reference gives a code point in at most seven decimal or six hexadecimal digits, or is one of
the names of `entityNames`; it ends with a semicolon.  Anything else that starts with an ampersand
is plain text.
-/

set_option autoImplicit false

namespace Frontispiece
namespace Markdown

/-- The character of a code point; zero stands for the replacement character. -/
def charOf? (code : Nat) : Option Char :=
  if code == 0 then some '\ufffd'
  else if h : code.isValidChar then some (Char.ofNatAux code h)
  else none

/-- The characters that a name stands for. -/
def entity? (name : List Char) : Option (List Char) :=
  match name with
  | [] => none
  | initial :: rest =>
    let entries := Text.splitOn (· == ';') (entityNames initial).toList
    (entries.findSome? fun entry =>
      (Text.dropLead? (rest ++ [' ']) entry).map (Text.splitOn (· == ' '))).map fun codes =>
        codes.filterMap fun digits => (Text.numeral? 16 digits).bind charOf?

/-- The characters that the reference at the start of a text stands for, and the text after it;
the ampersand is already read. -/
def reference? (s : List Char) : Option (List Char × List Char) :=
  let ended (value : Option (List Char)) (rest : List Char) : Option (List Char × List Char) :=
    match value, rest with
    | some value, ';' :: rest => some (value, rest)
    | _, _ => none
  let number (base limit : Nat) (s : List Char) : Option (List Char × List Char) :=
    let digits := (s.take limit).takeWhile fun c => (Text.digitValue? base c).isSome
    ended (((Text.numeral? base digits).bind charOf?).map ([·])) (s.drop digits.length)
  match s with
  | '#' :: s =>
    match s with
    | 'x' :: s | 'X' :: s => number 16 6 s
    | s => number 10 7 s
  | s =>
    let name := s.takeWhile Char.isAlphanum
    match s.drop name.length with
    | ';' :: rest => (entity? name).map (·, rest)
    | _ => none

/-- `unescape` on at most as many characters as the fuel. -/
def unescapeWithin : Nat → List Char → List Char
  | 0, s => s
  | _, [] => []
  | fuel + 1, c :: rest =>
    if c == '\\' then
      match rest with
      | escaped :: rest =>
        if Text.isAsciiPunctuation escaped then escaped :: unescapeWithin fuel rest
        else c :: unescapeWithin fuel (escaped :: rest)
      | [] => [c]
    else if c == '&' then
      match reference? rest with
      | some (value, rest) => value ++ unescapeWithin fuel rest
      | none => c :: unescapeWithin fuel rest
    else c :: unescapeWithin fuel rest

/-- A text with its escapes and references resolved. -/
def unescape (s : List Char) : List Char :=
  unescapeWithin s.length s

end Markdown
end Frontispiece
