/-!
# The fewest digits that read back

A finite double is `significand * 2 ^ exponent` for natural `significand`.  The reals nearer to it
than to its two neighbours form an interval, and every decimal in the interval reads back as that
double.  `shortest` finds a decimal of the interval with the fewest digits, and of those the one
nearest to the double.

The search is in exact arithmetic: for `1, 2, … 17` digits it looks at the two points of that
decimal grid beside the double.  If any point of a grid lies in the interval, so does one of
these two.
-/

set_option autoImplicit false

namespace Frontispiece
namespace Decimal

/-- A magnitude `significand * 2 ^ exponent`. -/
structure Binary where
  significand : Nat
  exponent : Int
  deriving Repr, DecidableEq

/-- A decimal `digits * 10 ^ power`. -/
structure Scaled where
  digits : Nat
  power : Int
  deriving Repr, DecidableEq

/-- Whether the sign bit of a double is set. -/
def isNegative (x : Float) : Bool :=
  x.toBits >>> 63 == 1

/-- The magnitude of a finite double. -/
def Binary.ofFloat (x : Float) : Binary :=
  let bits := x.toBits.toNat
  let fraction : Nat := bits % Nat.pow 2 52
  let biased : Nat := bits / Nat.pow 2 52 % Nat.pow 2 11
  if biased = 0 then ⟨fraction, -1074⟩ else ⟨Nat.pow 2 52 + fraction, (biased : Int) - 1075⟩

/-- A ratio of naturals. -/
structure Ratio where
  num : Nat
  den : Nat

/-- The ratio `n * 2 ^ e`. -/
def Ratio.scale2 (n : Nat) (e : Int) : Ratio :=
  if e < 0 then ⟨n, Nat.pow 2 e.natAbs⟩ else ⟨n * Nat.pow 2 e.natAbs, 1⟩

/-- The ratio divided by `10 ^ e`. -/
def Ratio.div10 (r : Ratio) (e : Int) : Ratio :=
  if e < 0 then ⟨r.num * Nat.pow 10 e.natAbs, r.den⟩
  else ⟨r.num, r.den * Nat.pow 10 e.natAbs⟩

/-- The largest `k` with `10 ^ k ≤ r`, for a ratio that is not below `10 ^ -400`. -/
def Ratio.order (r : Ratio) : Int :=
  ((toString (r.num * Nat.pow 10 400 / r.den)).length : Int) - 401

/-- The reals that read back as a double: its bounds in quarters of the last place, and whether
the bounds themselves belong to it, which they do for an even significand. -/
structure Interval where
  low : Nat
  high : Nat
  closed : Bool

/-- The interval of a magnitude.  Below a power of two the neighbour is at half the distance. -/
def Binary.interval (b : Binary) : Interval where
  low := if b.significand = Nat.pow 2 52 ∧ b.exponent > -1074 then 4 * b.significand - 1
    else 4 * b.significand - 2
  high := 4 * b.significand + 2
  closed := b.significand % 2 = 0

/-- Whether the decimal `t * 10 ^ g` lies in the interval of `b`. -/
def Binary.admits (b : Binary) (t : Nat) (g : Int) : Bool :=
  let i := b.interval
  let low := (Ratio.scale2 i.low (b.exponent - 2)).div10 g
  let high := (Ratio.scale2 i.high (b.exponent - 2)).div10 g
  if i.closed then low.num ≤ t * low.den && t * high.den ≤ high.num
  else low.num < t * low.den && t * high.den < high.num

/-- The point of the grid with step `10 ^ g` that reads back as `b`, if there is one; of two the
nearer, and of two at one distance the even one. -/
def Binary.onGrid? (b : Binary) (g : Int) : Option Nat :=
  let r := (Ratio.scale2 b.significand b.exponent).div10 g
  let below := r.num / r.den
  let rest := r.num % r.den
  match b.admits below g, b.admits (below + 1) g with
  | true, true =>
    if 2 * rest < r.den ∨ (2 * rest = r.den ∧ below % 2 = 0) then some below else some (below + 1)
  | true, false => some below
  | false, true => some (below + 1)
  | false, false => none

/-- The first of the grids with steps `10 ^ g`, `10 ^ (g - 1)`, … that has a point for `b`. -/
def Binary.firstGrid (b : Binary) : Nat → Int → Scaled
  | 0, g => ⟨(b.onGrid? g).getD 0, g⟩
  | more + 1, g =>
    match b.onGrid? g with
    | some t => ⟨t, g⟩
    | none => b.firstGrid more (g - 1)

/-- The decimal without zeros at the end of its digits. -/
def Scaled.stripZeros : Nat → Scaled → Scaled
  | 0, d => d
  | fuel + 1, d =>
    if d.digits ≠ 0 ∧ d.digits % 10 = 0 then stripZeros fuel ⟨d.digits / 10, d.power + 1⟩ else d

/-- The shortest decimal that reads back as the magnitude of a finite double; zero for zero. -/
def shortest (x : Float) : Scaled :=
  let b := Binary.ofFloat x
  if b.significand = 0 then ⟨0, 0⟩
  else
    let order := (Ratio.scale2 b.significand b.exponent).order
    (b.firstGrid 17 order).stripZeros 20

end Decimal
end Frontispiece
