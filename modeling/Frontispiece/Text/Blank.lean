/-!
# Blank characters

A character is *blank* when it has the Unicode property `White_Space`.  Everything in this
library that trims, or cuts a text into words, does it by this one class.

* `isBlank` is the class, `trim`, `trimStart` and `trimEnd` take it away at the ends of a text,
  `words` cuts a text at runs of it.
* `dropTrailing` is the general form of `trimEnd`, for the rules that trim another class.
-/

set_option autoImplicit false

namespace Frontispiece
namespace Text

/-- The property `White_Space`: the controls from tab to carriage return, the space, next line,
the no-break space, the spaces of the general punctuation block, and the ideographic space. -/
def isBlank (c : Char) : Bool :=
  let n := c.toNat
  (0x09 ≤ n && n ≤ 0x0d) || n == 0x20 || n == 0x85 || n == 0xa0 || n == 0x1680
    || (0x2000 ≤ n && n ≤ 0x200a) || n == 0x2028 || n == 0x2029 || n == 0x202f
    || n == 0x205f || n == 0x3000

/-- The text without the longest run of `p` characters at its end. -/
def dropTrailing (p : Char → Bool) (s : List Char) : List Char :=
  s.foldr (fun c kept => if kept.isEmpty && p c then [] else c :: kept) []

/-- The text without the blank characters at its start. -/
def trimStart (s : List Char) : List Char :=
  s.dropWhile isBlank

/-- The text without the blank characters at its end. -/
def trimEnd (s : List Char) : List Char :=
  dropTrailing isBlank s

/-- The text without the blank characters at its two ends. -/
def trim (s : List Char) : List Char :=
  trimEnd (trimStart s)

/-- Whether every character is blank; the empty text is. -/
def allBlank (s : List Char) : Bool :=
  s.all isBlank

/-- The words of a text, from left to right, when `word` is the word being read, reversed. -/
def wordsFrom (word : List Char) : List Char → List (List Char)
  | [] => if word.isEmpty then [] else [word.reverse]
  | c :: rest =>
    if isBlank c then
      if word.isEmpty then wordsFrom [] rest else word.reverse :: wordsFrom [] rest
    else wordsFrom (c :: word) rest

/-- The maximal runs of characters that are not blank. -/
def words (s : List Char) : List (List Char) :=
  wordsFrom [] s

/-- `trim` on a string. -/
def trimmed (s : String) : String :=
  String.ofList (trim s.toList)

end Text
end Frontispiece
