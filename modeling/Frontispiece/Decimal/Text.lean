import Frontispiece.Decimal.Shortest

/-!
# Written forms of a double

Every written form uses the digits of `shortest`.  The forms differ in where they change to an
exponent and in what they write for a whole number; those decisions are a `Style`.

* `Style.plain` never uses an exponent and writes a whole number without a point.
* `Style.data` is the form of numbers in data: at least one decimal place, an exponent with its
  sign below `1e-5` and from `1e+16` on.
* `Style.exact` is the same with no plus sign in the exponent.
* `coordinate` is the form of numbers in drawings: `plain`, with one zero.
-/

set_option autoImplicit false

namespace Frontispiece
namespace Decimal

/-- The decisions of a written form. -/
structure Style where
  /-- The orders of magnitude that are written with an exponent. -/
  usesExponent : Int → Bool
  /-- Whether a whole number keeps one decimal place. -/
  keepsPlace : Bool
  /-- What stands between `e` and the digits of an exponent that is not negative. -/
  exponentSign : String

/-- The digits without an exponent, whatever their number. -/
def Style.plain : Style := ⟨fun _ => false, false, ""⟩

/-- Numbers in data: an exponent below `1e-5` and from `1e+16` on. -/
def Style.data : Style := ⟨fun k => k < -5 || k ≥ 16, true, "+"⟩

/-- Numbers shown for their exact value: `data` without the plus sign. -/
def Style.exact : Style := ⟨fun k => k < -5 || k ≥ 16, true, ""⟩

/-- The digits with a point after the first `whole` of them, zeros filled in on both sides. -/
def positional (keepsPlace : Bool) (digits : List Char) (whole : Int) : List Char :=
  let size : Int := digits.length
  if whole ≤ 0 then '0' :: '.' :: List.replicate whole.natAbs '0' ++ digits
  else if size ≤ whole then
    digits ++ List.replicate (whole - size).toNat '0' ++ (if keepsPlace then ['.', '0'] else [])
  else digits.take whole.toNat ++ '.' :: digits.drop whole.toNat

/-- The digits with a point after the first, and an exponent. -/
def scientific (sign : String) (digits : List Char) (order : Int) : List Char :=
  let head := digits.take 1
  let tail := digits.drop 1
  let exponent :=
    if order < 0 then '-' :: (toString order.natAbs).toList
    else sign.toList ++ (toString order.natAbs).toList
  head ++ (if tail.isEmpty then [] else '.' :: tail) ++ 'e' :: exponent

/-- A double in a written form. -/
def Style.write (style : Style) (x : Float) : String :=
  if x.isNaN then "NaN"
  else
    let magnitude :=
      if x.isInf then "inf".toList
      else
        let d := shortest x
        if d.digits = 0 then if style.keepsPlace then "0.0".toList else ['0']
        else
          let digits := (toString d.digits).toList
          let order := d.power + digits.length - 1
          if style.usesExponent order then scientific style.exponentSign digits order
          else positional style.keepsPlace digits (order + 1)
    String.ofList (if isNegative x then '-' :: magnitude else magnitude)

/-- The form of numbers in drawings: `5` rather than `5.0`, and zero without a sign. -/
def coordinate (x : Float) : String :=
  if x == 0 then "0" else Style.plain.write x

end Decimal
end Frontispiece
