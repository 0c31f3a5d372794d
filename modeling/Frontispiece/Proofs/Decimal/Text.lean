import Frontispiece.Decimal.Text
import Frontispiece.Text.Blank

/-!
# Characters of written numbers

A number is written with digits, letters, a point and signs, in every written form.  So numbers may be
put side by side with commas and blanks between them.

## What is here

* `isFigure` — the characters that a written number may have; no blank and no comma is one of them.
* `isFigure_of_mem_write` — a written number has no others, if the sign of its form has no others.
* `coordinate_free` — a coordinate has no blank and no comma.

Only one thing about written numbers matters to those who read them back: which characters they
cannot have.  A coordinate stands between a comma and a blank, so it must have neither.  That is
shown for any double, finite or not, since the words for infinity and for what is no number are made
of letters.
-/

set_option autoImplicit false

namespace Frontispiece
namespace Decimal

variable {c : Char} {digits : List Char}

/-! ## Figures

All that a coordinate is written with: digits, a sign, a point and the mark of an exponent.  Commas
and blanks, which part coordinates, are not among them. -/

/-- A character of written numbers. -/
def isFigure (c : Char) : Bool :=
  c.isAlphanum || c == '.' || c == '-' || c == '+'

theorem isFigure_of_isDigit (h : c.isDigit = true) : isFigure c = true := by
  simp [isFigure, Char.isAlphanum, h]

theorem isFigure_of_mem_toString (n : Nat) : ∀ c ∈ (toString n).toList, isFigure c = true := by
  intro c hc
  rw [Nat.toString_eq_repr, Nat.toList_repr] at hc
  exact isFigure_of_isDigit (Nat.isDigit_of_mem_toDigits (by decide) (by decide) hc)

/-- Figures are in one range of characters, apart from the plus sign. -/
theorem range_of_isFigure (h : isFigure c = true) :
    (0x2d ≤ c.toNat ∧ c.toNat ≤ 0x7a) ∨ c = '+' := by
  delta isFigure Char.isAlphanum Char.isAlpha Char.isUpper Char.isLower Char.isDigit at h
  simp only [Bool.or_eq_true, Bool.and_eq_true, decide_eq_true_eq, beq_iff_eq, ge_iff_le,
    UInt32.le_iff_toNat_le] at h
  rcases h with ((h | rfl) | rfl) | rfl
  · change ((65 ≤ c.toNat ∧ c.toNat ≤ 90) ∨ (97 ≤ c.toNat ∧ c.toNat ≤ 122))
      ∨ (48 ≤ c.toNat ∧ c.toNat ≤ 57) at h
    omega
  · decide
  · decide
  · decide

/-- No figure is a blank or a comma, so that numbers are kept apart by these. -/
theorem free_of_isFigure (h : isFigure c = true) : Text.isBlank c = false ∧ (c == ',') = false := by
  rcases range_of_isFigure h with hrange | rfl
  · have hcomma : c ≠ ',' := by
      rintro rfl
      revert hrange
      decide
    refine ⟨?_, by simpa using hcomma⟩
    simp only [Text.isBlank, Bool.or_eq_false_iff, Bool.and_eq_false_iff, decide_eq_false_iff_not,
      beq_eq_false_iff_ne]
    omega
  · decide

/-! ## Written forms

A double is written in one of two forms, with or without an exponent.  In both, what is not a digit
is one of the few marks above. -/

/-- A number written with its point in place has figures only. -/
theorem isFigure_of_mem_positional (keepsPlace : Bool) (whole : Int)
    (hdigits : ∀ c ∈ digits, isFigure c = true) :
    ∀ c ∈ positional keepsPlace digits whole, isFigure c = true := by
  have hpoint : isFigure '.' = true := by decide
  have hzero : isFigure '0' = true := by decide
  have hzeros : ∀ n, ∀ c ∈ List.replicate n '0', isFigure c = true := fun n c hc =>
    List.eq_of_mem_replicate hc ▸ hzero
  rw [positional]
  split
  · simp only [List.forall_mem_append, List.forall_mem_cons]
    exact ⟨⟨hzero, hpoint, hzeros _⟩, hdigits⟩
  · split
    · simp only [List.forall_mem_append]
      refine ⟨⟨hdigits, hzeros _⟩, ?_⟩
      cases keepsPlace with
      | true => exact List.all_eq_true.1 (by decide)
      | false => exact List.forall_mem_nil _
    · simp only [List.forall_mem_append, List.forall_mem_cons]
      exact ⟨fun c hc => hdigits c (List.mem_of_mem_take hc), hpoint,
        fun c hc => hdigits c (List.mem_of_mem_drop hc)⟩

/-- So has a number written with an exponent. -/
theorem isFigure_of_mem_scientific {sign : String} (order : Int)
    (hsign : ∀ c ∈ sign.toList, isFigure c = true) (hdigits : ∀ c ∈ digits, isFigure c = true) :
    ∀ c ∈ scientific sign digits order, isFigure c = true := by
  have hmark : isFigure 'e' = true := by decide
  have hminus : isFigure '-' = true := by decide
  have hpoint : isFigure '.' = true := by decide
  rw [scientific]
  simp only [List.forall_mem_append, List.forall_mem_cons]
  refine ⟨⟨fun c hc => hdigits c (List.mem_of_mem_take hc), ?_⟩, hmark, ?_⟩
  · split
    · exact List.forall_mem_nil _
    · exact List.forall_mem_cons.2 ⟨hpoint, fun c hc => hdigits c (List.mem_of_mem_drop hc)⟩
  · split
    · exact List.forall_mem_cons.2 ⟨hminus, isFigure_of_mem_toString _⟩
    · exact List.forall_mem_append.2 ⟨hsign, isFigure_of_mem_toString _⟩

/-- **A written number has figures only.** -/
theorem isFigure_of_mem_write {style : Style}
    (hsign : ∀ c ∈ style.exponentSign.toList, isFigure c = true) (x : Float) :
    ∀ c ∈ (style.write x).toList, isFigure c = true := by
  have hminus : isFigure '-' = true := by decide
  rw [Style.write]
  split
  · exact List.all_eq_true.1 (by decide)
  · rw [String.toList_ofList]
    have hsigned : ∀ {magnitude : List Char}, (∀ c ∈ magnitude, isFigure c = true) →
        ∀ c ∈ (if isNegative x then '-' :: magnitude else magnitude), isFigure c = true := by
      intro magnitude h
      split
      · exact List.forall_mem_cons.2 ⟨hminus, h⟩
      · exact h
    refine hsigned ?_
    split
    · exact List.all_eq_true.1 (by decide)
    · dsimp only
      split
      · split
        · exact List.all_eq_true.1 (by decide)
        · exact List.all_eq_true.1 (by decide)
      · split
        · exact isFigure_of_mem_scientific _ hsign (isFigure_of_mem_toString _)
        · exact isFigure_of_mem_positional _ _ (isFigure_of_mem_toString _)

/-- **A coordinate has no blank and no comma.** -/
theorem coordinate_free (x : Float) :
    ∀ c ∈ (coordinate x).toList, Text.isBlank c = false ∧ (c == ',') = false := by
  have hfigures : ∀ c ∈ (coordinate x).toList, isFigure c = true := by
    rw [coordinate]
    split
    · exact List.all_eq_true.1 (by decide)
    · exact isFigure_of_mem_write (List.forall_mem_nil _) x
  exact fun c hc => free_of_isFigure (hfigures c hc)

end Decimal
end Frontispiece
