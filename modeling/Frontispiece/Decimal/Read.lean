/-!
# Reading a double

`read?` reads the decimal notation of a double: an optional sign, then digits with an optional
point and exponent, or one of the names `inf`, `infinity` and `nan` in any letter case.  There is
at least one digit before or after the point, and at least one in an exponent.  Nothing else may
stand in the text.

* `nearest` is the double nearest to `digits * 10 ^ power`.
* `scaled?` first rounds the digits to a double and then multiplies or divides it by a power of
  ten, which is how numbers in data are read.
-/

set_option autoImplicit false

namespace Frontispiece
namespace Decimal

/-- The value of a run of digits after the value `n`. -/
def digitsValue (n : Nat) (s : List Char) : Nat :=
  s.foldl (fun n c => n * 10 + (c.toNat - '0'.toNat)) n

/-- The double nearest to `digits * 10 ^ power`.  Beyond the range of doubles the power is not
computed. -/
def nearest (digits : Nat) (power : Int) : Float :=
  if digits = 0 then 0
  else
    let order := ((toString digits).length : Int) + power
    if order > 320 then Float.ofScientific 1 false 400
    else if order < -360 then 0
    else Float.ofScientific digits (power < 0) power.natAbs

/-- The power of ten `10 ^ n` as a double. -/
def powerOfTen (n : Nat) : Float :=
  Float.ofScientific 1 false n

/-- The double of a natural number. -/
def ofNat (n : Nat) : Float :=
  Float.ofScientific n false 0

/-- `digits * 10 ^ power`, by rounding `digits` and scaling the result once, or, below the
smallest power, in steps of `10 ^ 308`; none when that is beyond the range of doubles. -/
def scaled? (digits : Nat) (power : Int) : Option Float :=
  let x := ofNat digits
  if power.natAbs ≤ 308 then
    if power ≥ 0 then
      let y := x * powerOfTen power.natAbs
      if y.isInf then none else some y
    else some (x / powerOfTen power.natAbs)
  else if x == 0 then some x
  else if power ≥ 0 then none
  else
    let x := x / powerOfTen 308
    let power := power + 308
    if power.natAbs ≤ 308 then some (x / powerOfTen power.natAbs)
    else some (x / powerOfTen 308 / powerOfTen 308)

/-- Whether two texts are the same up to the case of ASCII letters. -/
def sameName (s : List Char) (name : String) : Bool :=
  s.map Char.toLower == name.toList

/-- The exponent written after the digits: none when the text is no exponent. -/
def exponent? : List Char → Option Int
  | [] => some 0
  | c :: rest =>
    if c == 'e' || c == 'E' then
      let (negative, digits) :=
        match rest with
        | '-' :: digits => (true, digits)
        | '+' :: digits => (false, digits)
        | digits => (false, digits)
      if digits.isEmpty || !digits.all Char.isDigit then none
      else
        let n : Int := digitsValue 0 digits
        some (if negative then -n else n)
    else none

/-- A number without its sign. -/
def magnitude? (s : List Char) : Option Float :=
  if sameName s "inf" || sameName s "infinity" then some (Float.ofScientific 1 false 400)
  else if sameName s "nan" then some (0 / 0)
  else
    let whole := s.takeWhile Char.isDigit
    let rest := s.dropWhile Char.isDigit
    let (places, rest) :=
      match rest with
      | '.' :: rest => (rest.takeWhile Char.isDigit, rest.dropWhile Char.isDigit)
      | rest => ([], rest)
    if whole.isEmpty && places.isEmpty then none
    else
      (exponent? rest).map fun e =>
        nearest (digitsValue 0 (whole ++ places)) (e - places.length)

/-- The double that a text denotes. -/
def read? : List Char → Option Float
  | '-' :: s => (magnitude? s).map fun x => -x
  | '+' :: s => magnitude? s
  | s => magnitude? s

end Decimal
end Frontispiece
