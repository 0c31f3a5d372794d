import Frontispiece.Json.Compare
import Mathlib

/-!
# The order of doubles

Doubles are compared by their unpacked form: two of them are in one of three orders, or in none when
one is not a number.  No whole number is read as that.

## What is here

* `compare_swap` — comparing two unpacked doubles the other way round gives the opposite order.
* `floatOrder?_eq`, `floatOrder?_swap` — the same for `Json.floatOrder?`.
* `pack_ne_nan` — rounding and packing a number gives a number.
* `Number.toFloat_ne_nan` — a number of data is a double that is a number.

Doubles here are computed with and not postulated: comparing them unpacks both and compares sign,
exponent and mantissa.  That the library has few lemmas about this is the only reason for which the
proofs are long.  What they come to is what one expects of numbers: the order of two of them is
known from either side, and no number is the double that equals nothing.

The lemmas on doubles that are used here come with the whole of Mathlib only, so this module imports
all of it.
-/

set_option autoImplicit false

namespace Frontispiece
namespace Decimal

open Float.Model (UnpackedFloat Format)
open Float.Model.UnpackedFloat

/-! ## Comparing

Comparing two doubles the other way round gives the other answer.  This is not in the library for
all of the model, so it is taken from how the model compares unpacked numbers. -/

/-- Two magnitudes the other way round. -/
theorem then_compare_swap (d e : Int) (m n : Nat) :
    ((compare d e).then (compare m n)).swap = (compare e d).then (compare n m) := by
  rw [Ordering.swap_then, Int.compare_swap, Nat.compare_swap]

/-- **Two doubles the other way round**, by cases on what they are. -/
theorem compare_swap (x y : UnpackedFloat) : y.compare x = (x.compare y).map Ordering.swap := by
  cases x with
  | notANumber => cases y <;> rfl
  | infinity s =>
    cases y with
    | notANumber => cases s <;> rfl
    | infinity t => cases s <;> cases t <;> rfl
    | zero t => cases s <;> rfl
    | finite t n e hn => cases s <;> cases t <;> rfl
  | zero s =>
    cases y with
    | notANumber => rfl
    | infinity t => cases t <;> rfl
    | zero t => rfl
    | finite t n e hn => cases t <;> rfl
  | finite s m d hm =>
    cases y with
    | notANumber => cases s <;> rfl
    | infinity t => cases s <;> cases t <;> rfl
    | zero t => cases s <;> rfl
    | finite t n e hn =>
      cases s with
      | positive =>
        cases t with
        | positive => exact congrArg some (then_compare_swap d e m n).symm
        | negative => rfl
      | negative =>
        cases t with
        | positive => rfl
        | negative =>
          exact congrArg (fun order => some (Ordering.swap order)) (then_compare_swap d e m n).symm

theorem lt_iff_compare (x y : Float) :
    x < y ↔ x.toModel.unpack.compare y.toModel.unpack = some .lt := by
  show decide (x.toModel.unpack.lt y.toModel.unpack = true) = true ↔ _
  rw [decide_eq_true_iff, Float.Model.UnpackedFloat.lt, beq_iff_eq]

theorem beq_iff_compare (x y : Float) :
    (x == y) = true ↔ x.toModel.unpack.compare y.toModel.unpack = some .eq := by
  show x.toModel.unpack.beq y.toModel.unpack = true ↔ _
  rw [Float.Model.UnpackedFloat.beq, beq_iff_eq]

theorem floatOrder?_eq (x y : Float) :
    Json.floatOrder? x y = x.toModel.unpack.compare y.toModel.unpack := by
  rw [Json.floatOrder?]
  simp only [lt_iff_compare, beq_iff_compare, compare_swap x.toModel.unpack y.toModel.unpack]
  cases x.toModel.unpack.compare y.toModel.unpack with
  | none => rfl
  | some order => cases order <;> rfl

theorem floatOrder?_swap (x y : Float) :
    Json.floatOrder? y x = (Json.floatOrder? x y).map Ordering.swap := by
  rw [floatOrder?_eq, floatOrder?_eq, compare_swap]

/-! ## Numbers

A number of data is never the double that is no number: digits are rounded, and rounding ends in a
number or in infinity. -/

/-- Only what is not a number is packed as such. -/
theorem pack_ne_packedNaN {spec : Format} {x : UnpackedFloat} (h : x ≠ .notANumber) :
    x.pack spec ≠ packedNaN spec := by
  intro heq
  have hbits : isNaNBits (x.pack spec) = true := heq ▸ isNaNBits_packedNaN
  cases x with
  | notANumber => exact h rfl
  | infinity s => simp [isNaNBits, pack, packedInfinity] at hbits
  | zero s => simp [isNaNBits, pack, packedZero] at hbits
  | finite s m e hm =>
    rw [pack] at hbits
    split at hbits
    · simp [isNaNBits, packedInfinity] at hbits
    · next hsmall =>
      split at hbits
      · simp only [isNaNBits, unpackExponent_packComponents, decide_eq_true_eq] at hbits
        have hexponent := congrArg BitVec.toNat hbits.1
        simp only [BitVec.toNat_ofNat, BitVec.neg_one_eq_allOnes, BitVec.toNat_allOnes] at hexponent
        rw [Nat.mod_eq_of_lt (by omega)] at hexponent
        omega
      · simp [isNaNBits, Nat.ne_of_gt spec.he] at hbits

theorem pack_ne_nan {x : UnpackedFloat} (h : x ≠ .notANumber) :
    Float.ofModel (Float.Model.pack x) ≠ Float.nan := by
  rw [Ne, ← decide_eq_false_iff_not, ← Float.isNaN_eq_decide_eq_nan, Bool.eq_false_iff]
  exact fun hnan => pack_ne_packedNaN h
    ((isNaN_unpack_iff_of_valid (Float.Model.pack x).valid).1 hnan)

theorem ne_nan_iff {x : Float} : x ≠ Float.nan ↔ x.toModel.unpack ≠ .notANumber := by
  rw [Ne, ← decide_eq_false_iff_not, ← Float.isNaN_eq_decide_eq_nan, Bool.eq_false_iff]
  exact not_congr isNaN_iff

/-- What is rounded is a number. -/
theorem roundWithAccuracy_ne (spec : Format) (s : Sign) (m : Nat) (e : Int) (a : Accuracy) :
    roundWithAccuracy spec s m e a ≠ .notANumber := by
  rw [roundWithAccuracy]
  split
  dsimp only
  split
  · nofun
  · nofun

theorem round_ne (spec : Format) (s : Sign) (m : Nat) (e : Int) :
    UnpackedFloat.round spec s m e ≠ .notANumber :=
  roundWithAccuracy_ne spec s _ _ _

theorem normalize_ne (spec : Format) (m e : Int) (s : Sign) :
    UnpackedFloat.normalize spec m e s ≠ .notANumber := by
  unfold UnpackedFloat.normalize
  split
  · exact round_ne _ _ _ _
  · nofun
  · exact round_ne _ _ _ _

/-- A number times one that is neither zero nor infinite is a number. -/
theorem mul_ne {spec : Format} {x : UnpackedFloat} (h : x ≠ .notANumber) (s : Sign) (m : Nat)
    (e : Int) (hm : 0 < m) : mul spec x (.finite s m e hm) ≠ .notANumber := by
  cases x with
  | notANumber => exact absurd rfl h
  | infinity t => nofun
  | zero t => nofun
  | finite t n d hn => exact roundWithAccuracy_ne _ _ _ _ _

theorem ofScientific_ne (spec : Format) (m : Nat) {e : Int} (he : 0 ≤ e) :
    UnpackedFloat.ofScientific spec m e ≠ .notANumber := by
  rw [UnpackedFloat.ofScientific]
  split
  · nofun
  · split
    · nofun
    · split
      · nofun
      · exact roundWithAccuracy_ne _ _ _ _ _

/-- A natural number is a number. -/
theorem ofNat_ne_nan (n : Nat) : Decimal.ofNat n ≠ Float.nan := by
  rw [Decimal.ofNat, Float.ofScientific]
  split
  · have hone : (Float.exactlyRepresentablePowersOfTen[0]).toModel.unpack
        = .finite .positive (2 ^ 52) (-52) (by decide) := by rfl
    have hwhole : n.toUInt64.toFloat.toModel.unpack ≠ .notANumber :=
      ne_nan_iff.1 (pack_ne_nan (normalize_ne _ _ _ _))
    refine pack_ne_nan ?_
    show mul _ _ (Float.exactlyRepresentablePowersOfTen[0]).toModel.unpack ≠ _
    rw [hone]
    exact mul_ne hwhole _ _ _ _
  · exact pack_ne_nan (ofScientific_ne _ _ (Int.natCast_nonneg 0))

theorem neg_ne_nan {x : Float} (h : x ≠ Float.nan) : -x ≠ Float.nan := by
  have hx := ne_nan_iff.1 h
  refine pack_ne_nan ?_
  cases hkind : x.toModel.unpack with
  | notANumber => exact absurd hkind hx
  | infinity s => nofun
  | zero s => nofun
  | finite s m e hm => nofun

theorem ne_nan_of_isFinite {x : Float} (h : x.isFinite = true) : x ≠ Float.nan := by
  rw [ne_nan_iff]
  intro hnan
  have hfinite : x.toModel.unpack.isFinite = true := h
  rw [hnan] at hfinite
  cases hfinite

end Decimal

/-- **A number of data is a double that is a number.** -/
theorem Number.toFloat_ne_nan (n : Number) : n.toFloat ≠ Float.nan := by
  cases n with
  | int n =>
    rw [Number.toFloat]
    split
    · exact Decimal.neg_ne_nan (Decimal.ofNat_ne_nan _)
    · exact Decimal.ofNat_ne_nan _
  | float x hfinite => exact Decimal.ne_nan_of_isFinite hfinite

end Frontispiece
