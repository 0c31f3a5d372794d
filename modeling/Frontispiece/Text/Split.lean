import Frontispiece.Text.Blank

/-!
# Cutting and joining texts

Texts are cut at a character, at line ends, or at the first occurrence of a text, and joined with
a separator.  All functions work on lists of characters and are structural in the text.
-/

set_option autoImplicit false

namespace Frontispiece
namespace Text

/-- The pieces between the characters that `p` holds of; there is always one more piece than
there are such characters. -/
def splitOn (p : Char → Bool) : List Char → List (List Char)
  | [] => [[]]
  | c :: rest =>
    if p c then [] :: splitOn p rest
    else
      match splitOn p rest with
      | [] => [[c]]
      | piece :: pieces => (c :: piece) :: pieces

/-- The rest of the text after `lead`, when the text starts with it. -/
def dropLead? : List Char → List Char → Option (List Char)
  | [], s => some s
  | _ :: _, [] => none
  | p :: ps, c :: cs => if p == c then dropLead? ps cs else none

/-- Whether the text starts with `lead`. -/
def startsWith (lead s : List Char) : Bool :=
  (dropLead? lead s).isSome

/-- Whether the text ends with `tail`. -/
def endsWith (tail s : List Char) : Bool :=
  startsWith tail.reverse s.reverse

/-- What stands before and after the first occurrence of `mark`. -/
def cutAt? (mark : List Char) : List Char → Option (List Char × List Char)
  | [] => if mark.isEmpty then some ([], []) else none
  | c :: rest =>
    match dropLead? mark (c :: rest) with
    | some after => some ([], after)
    | none => (cutAt? mark rest).map fun (before, after) => (c :: before, after)

/-- What stands before and after the first character that `p` holds of, that character left
out. -/
def cutWhere? (p : Char → Bool) : List Char → Option (List Char × List Char)
  | [] => none
  | c :: rest =>
    if p c then some ([], rest)
    else (cutWhere? p rest).map fun (before, after) => (c :: before, after)

/-- One carriage return at the end of a line belongs to the line end. -/
def dropReturn (line : List Char) : List Char :=
  match line.getLast? with
  | some '\r' => line.dropLast
  | _ => line

/-- The lines of a text: a line ends at a line feed, or at a carriage return and a line feed;
the last line may have no end.  A carriage return alone, or at the end of a line that has no
line feed, belongs to the line. -/
def lines (s : List Char) : List (List Char) :=
  let pieces := splitOn (· == '\n') s
  match pieces.reverse with
  | [] => []
  | last :: before =>
    before.reverse.map dropReturn ++ (if last.isEmpty then [] else [last])

/-- The pieces with `separator` between each two. -/
def join (separator : List Char) : List (List Char) → List Char
  | [] => []
  | [piece] => piece
  | piece :: pieces => piece ++ separator ++ join separator pieces

/-- `join` on strings. -/
def joined (separator : String) (pieces : List String) : String :=
  separator.intercalate pieces

/-- `n` copies of a text. -/
def copies (n : Nat) (s : List Char) : List Char :=
  (List.replicate n s).flatten

end Text
end Frontispiece
