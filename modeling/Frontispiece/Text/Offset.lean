/-!
# Offsets

A place in a text is given by its *offset*: the number of bytes before it in the UTF-8 form of
the text.  Readers in this library work on lists of characters and report the offset of the rest
that they could not read.

* `byteLength` is the length of the UTF-8 form, `offsetOf` the offset at which a rest starts.
* `charIndex` is the number of characters that start before an offset.
-/

set_option autoImplicit false

namespace Frontispiece
namespace Text

/-- The number of bytes of the UTF-8 form. -/
def byteLength (s : List Char) : Nat :=
  s.foldl (fun n c => n + c.utf8Size) 0

/-- The offset in `whole` at which its end `rest` starts. -/
def offsetOf (whole rest : List Char) : Nat :=
  byteLength whole - byteLength rest

/-- The number of characters that start before the offset `n`. -/
def charIndex (s : List Char) (n : Nat) : Nat :=
  match s with
  | [] => 0
  | c :: rest => if n = 0 then 0 else 1 + charIndex rest (n - c.utf8Size)

end Text
end Frontispiece
