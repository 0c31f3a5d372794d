/-!
# Quoted texts in messages

`quoted` writes a text between double quotes so that every character of it can be seen: quotes and
backslashes have a backslash before them, the common controls their short escapes, and characters
without a shape of their own their code point.
-/

set_option autoImplicit false

namespace Frontispiece
namespace Text

/-- Ranges of characters that are not shown as themselves: controls, formats, separators other
than the space, combining marks, private and unassigned areas. -/
def unseenRanges : List (Nat × Nat) :=
  [(0x00, 0x1f), (0x7f, 0xa0), (0xad, 0xad), (0x300, 0x36f), (0x378, 0x379), (0x380, 0x383),
    (0x483, 0x489), (0x591, 0x5bd), (0x5bf, 0x5bf), (0x5c1, 0x5c2), (0x5c4, 0x5c5), (0x5c7, 0x5cf),
    (0x600, 0x605), (0x610, 0x61a), (0x61c, 0x61c), (0x64b, 0x65f), (0x670, 0x670),
    (0x6d6, 0x6dd), (0x6df, 0x6e4), (0x6e7, 0x6e8), (0x6ea, 0x6ed), (0x70e, 0x70f),
    (0x711, 0x711), (0x730, 0x74c), (0x7a6, 0x7b0), (0x93c, 0x93c), (0x94d, 0x94d),
    (0xe31, 0xe31), (0xe34, 0xe3a), (0xe47, 0xe4e), (0x1680, 0x1680), (0x180b, 0x180f),
    (0x1ab0, 0x1aff), (0x1dc0, 0x1dff), (0x2000, 0x200f), (0x2028, 0x202f), (0x205f, 0x206f),
    (0x20d0, 0x20ff), (0x2cef, 0x2cf1), (0x3000, 0x3000), (0x302a, 0x302f), (0x3099, 0x309a),
    (0xa66f, 0xa672), (0xd7fc, 0xf8ff), (0xfb1e, 0xfb1e), (0xfe00, 0xfe0f), (0xfe1a, 0xfe2f),
    (0xfeff, 0xff00), (0xfff0, 0xfffb), (0xfffe, 0xffff), (0x1d167, 0x1d169), (0x1d173, 0x1d182),
    (0x323b0, 0x10ffff)]

/-- Whether a character is shown as itself. -/
def isSeen (c : Char) : Bool :=
  !unseenRanges.any fun (first, last) => first ≤ c.toNat && c.toNat ≤ last

/-- A character between quotes. -/
def quotedChar (c : Char) : List Char :=
  if c == '\x00' then ['\\', '0']
  else if c == '\t' then ['\\', 't']
  else if c == '\n' then ['\\', 'n']
  else if c == '\r' then ['\\', 'r']
  else if c == '"' then ['\\', '"']
  else if c == '\\' then ['\\', '\\']
  else if isSeen c then [c]
  else '\\' :: 'u' :: '{' :: Nat.toDigits 16 c.toNat ++ ['}']

/-- A text between quotes. -/
def quoted (s : String) : String :=
  String.ofList ('"' :: s.toList.flatMap quotedChar ++ ['"'])

end Text
end Frontispiece
