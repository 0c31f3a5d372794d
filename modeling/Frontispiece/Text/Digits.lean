/-!
# Numbers in a base

`numeral?` reads the digits of a natural number in a base up to sixteen, in either letter case.
-/

set_option autoImplicit false

namespace Frontispiece
namespace Text

/-- The value of a digit in a base. -/
def digitValue? (base : Nat) (c : Char) : Option Nat :=
  let value? :=
    if '0' ≤ c && c ≤ '9' then some (c.toNat - '0'.toNat)
    else if 'a' ≤ c && c ≤ 'f' then some (c.toNat - 'a'.toNat + 10)
    else if 'A' ≤ c && c ≤ 'F' then some (c.toNat - 'A'.toNat + 10)
    else none
  value?.filter (· < base)

/-- Whether a character is a hexadecimal digit. -/
def isHexDigit (c : Char) : Bool :=
  (digitValue? 16 c).isSome

/-- The number that digits write in a base; there is at least one digit. -/
def numeral? (base : Nat) (digits : List Char) : Option Nat :=
  if digits.isEmpty then none
  else digits.foldl (fun n c => do some ((← n) * base + (← digitValue? base c))) (some 0)

end Text
end Frontispiece
