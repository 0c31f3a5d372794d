import Frontispiece.Proofs.Deferred.Output
import Frontispiece.Proofs.Json.Fields
import Mathlib.Data.Nat.Cast.Order.Basic

/-!
# Handles

A ticket travels through a template as a handle.  A pass takes its own handles back, as long as
their tickets are 64-bit numbers, and takes nothing that does not name it.

A handle is an object like any other, with the ticket under one key and the nonce under another.
What a pass accepts is therefore a question about values and not about where they come from: data
that happens to have the nonce and a ticket of the pass in the right form is taken for a handle.
-/

set_option autoImplicit false

namespace Frontispiece
namespace Deferred

/-- The pass that a value names, if it has the form of a handle. -/
def passOf? : Json → Option Nat
  | .object fields => (Fields.get? fields passKey).bind Json.natural?
  | _ => none

namespace Pass

variable {α : Type}

/-- The number of tickets that handles can hold. -/
def ticketCount : Nat := 2 ^ 64

theorem natural?_int {n : Nat} :
    (Json.int n).natural? = if n < ticketCount then some n else none := by
  have hpow : Nat.pow 2 64 = ticketCount := rfl
  simp only [Json.int, Json.natural?, hpow]
  by_cases h : n < ticketCount
  · rw [if_pos h, if_pos ⟨by omega, by exact_mod_cast h⟩, Int.toNat_natCast]
  · rw [if_neg h, if_neg fun hn => h (by exact_mod_cast hn.2)]

/-- **A pass takes its own handles back.** -/
theorem ticketOf?_handle (p : Pass α) (ticket : Nat) :
    p.ticketOf? (p.handle ticket) = if ticket < ticketCount then some ticket else none := by
  have hlt : p.nonce.toNat < ticketCount := p.nonce.toNat_lt
  have hnonce : (Json.int p.nonce.toNat).natural? = some p.nonce.toNat := by
    rw [natural?_int, if_pos hlt]
  have hkey : Fields.get? [(handleKey, Json.int ticket), (passKey, Json.int p.nonce.toNat)] passKey
      = some (Json.int p.nonce.toNat) := rfl
  have hticket : Fields.get? [(handleKey, Json.int ticket), (passKey, Json.int p.nonce.toNat)]
      handleKey = some (Json.int ticket) := rfl
  rw [handle, ticketOf?, hkey, hticket, Option.bind_some, Option.bind_some, hnonce, natural?_int]
  simp

/-- What a pass takes names it. -/
theorem passOf?_of_ticketOf? {p : Pass α} {value : Json} {ticket : Nat}
    (h : p.ticketOf? value = some ticket) : passOf? value = some p.nonce.toNat := by
  cases value with
  | object fields =>
    rw [ticketOf?] at h
    split at h
    · next hform =>
      rw [Bool.and_eq_true, beq_iff_eq, beq_iff_eq] at hform
      exact hform.2
    · cases h
  | _ => cases h

/-- Placing a value is a call of the pass, or fails and leaves the output as it was. -/
theorem placeValue_eq (p : Pass α) (value : Json) :
    p.placeValue value = match p.ticketOf? value with
      | some ticket =>
        if ticket < p.pending.length then .ok (p.step (.place ticket))
        else .error (.notDeferred (p.handle ticket).render,
          p.recordError (.notDeferred (p.handle ticket).render))
      | none => .error (.notDeferred value.render, p.recordError (.notDeferred value.render)) := by
  rw [placeValue]
  cases p.ticketOf? value with
  | none => rfl
  | some ticket =>
    simp only [step_place, place]
    by_cases h : ticket < p.pending.length
    · simp only [if_pos h]
    · simp only [if_neg h]

end Pass
end Deferred
end Frontispiece
