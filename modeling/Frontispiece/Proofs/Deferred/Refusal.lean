import Frontispiece.Proofs.Deferred.Handle
import Mathlib.Data.List.Perm.Subperm

/-!
# What a pass takes

Templates place values of which a pass knows nothing, and data may look like a handle.  A pass takes
the handles of the tickets that it handed out, with their keys in either order, and refuses all
other values.

## What is here

* `IsHandle` — the form of a handle, said of the fields of an object.
* `ticketOf?_eq_some_iff` — a pass reads tickets out of its handles and of nothing else.
* `placeValue_of_issued`, `placeValue_of_foreign`, `placeValue_of_unissued` — what becomes of a value
  that is placed.
* `Call`, `Pass.after` — the calls that templates make on a pass, placed values and faults included.
* `Pass.sinceTaken` — the faults that were recorded since faults were last taken.
* `placeValue_exact` — all of this for a run of calls on a new pass.

Which values are taken is decided by reading: the pass looks up two keys, wants natural numbers
under them and nothing else in the object, and compares the nonce.  `ticketOf?_eq_some_iff` turns
this into a statement about the value, from which the rest follows.  What is refused is reported
with a text, and there the order of keys shows: the pass has read the ticket by then and writes the
handle anew.
-/

set_option autoImplicit false

namespace Frontispiece
namespace Deferred

open Template (Fault)

variable {α : Type}

/-! ## The form of a handle

A handle is an object of two keys, in either order, with numbers under them.  Decoding is shown to
accept exactly these, with nothing said of how it looks them up. -/

/-- A value is a handle of a ticket under a nonce: an object of the two keys and nothing else, in
either order.  Whole numbers of data have at most 64 bits. -/
def IsHandle (nonce : UInt64) (ticket : Nat) (value : Json) : Prop :=
  ticket < Pass.ticketCount ∧ ∃ fields : Fields Json, value = .object fields ∧
    fields.Perm [(handleKey, Json.int ticket), (passKey, Json.int nonce.toNat)]

namespace Pass

variable {p : Pass α} {value : Json} {nonce : UInt64} {ticket : Nat}

/-- A number is a ticket exactly if it is a whole one below the number of tickets. -/
theorem natural?_eq_some_iff {n : Nat} :
    value.natural? = some n ↔ n < ticketCount ∧ value = Json.int n := by
  constructor
  · intro h
    cases value with
    | number x =>
      cases x with
      | int m =>
        simp only [Json.natural?, Option.ite_none_right_eq_some, Option.some.injEq] at h
        obtain ⟨⟨hnonneg, hlt⟩, rfl⟩ := h
        have hm : (m.toNat : Int) = m := Int.toNat_of_nonneg hnonneg
        refine ⟨?_, by rw [Json.int, hm]⟩
        have hpow : ((Nat.pow 2 64 : Nat) : Int) = (ticketCount : Nat) := rfl
        omega
      | float x finite => cases h
    | _ => cases h
  · rintro ⟨hlt, rfl⟩
    rw [natural?_int, if_pos hlt]

/-- A field that holds a natural number is a field with this number. -/
theorem mem_of_bind_natural? {fields : Fields Json} {key : String} {n : Nat}
    (h : (fields.get? key).bind Json.natural? = some n) :
    n < ticketCount ∧ (key, Json.int n) ∈ fields := by
  obtain ⟨found, hfound, hn⟩ := Option.bind_eq_some_iff.1 h
  obtain ⟨hlt, rfl⟩ := natural?_eq_some_iff.1 hn
  exact ⟨hlt, Fields.mem_of_get? hfound⟩

/-- Two fields in a list of two are the list. -/
theorem perm_pair {β : Type} {a b : β} {list : List β} (hlength : list.length = 2) (hne : a ≠ b)
    (ha : a ∈ list) (hb : b ∈ list) : list.Perm [a, b] := by
  have hnodup : [a, b].Nodup := by simpa using hne
  have hsub : [a, b].Subperm list := hnodup.subperm fun x hx => by
    rcases List.mem_cons.1 hx with rfl | hx
    · exact ha
    · exact List.mem_singleton.1 hx ▸ hb
  exact (hsub.perm_of_length_le hlength.le).symm

/-- **A pass reads tickets out of its handles and of nothing else.** -/
theorem ticketOf?_eq_some_iff : p.ticketOf? value = some ticket ↔ IsHandle p.nonce ticket value := by
  constructor
  · intro h
    cases value with
    | object fields =>
      rw [ticketOf?] at h
      split at h
      · next hform =>
        rw [Bool.and_eq_true, beq_iff_eq, beq_iff_eq] at hform
        obtain ⟨hlt, hticket⟩ := mem_of_bind_natural? h
        have hnonce := (mem_of_bind_natural? hform.2).2
        have hkeys : handleKey ≠ passKey := by decide
        have hne : (handleKey, Json.int ticket) ≠ (passKey, Json.int p.nonce.toNat) := fun heq =>
          hkeys (congrArg Prod.fst heq)
        exact ⟨hlt, fields, rfl, perm_pair hform.1 hne hticket hnonce⟩
      · cases h
    | _ => cases h
  · rintro ⟨hlt, fields, rfl, hperm⟩
    have hkeys : fields.keys.Nodup := by
      refine (hperm.map Prod.fst).nodup_iff.2 ?_
      show [handleKey, passKey].Nodup
      decide
    have hnonce : fields.get? passKey = some (Json.int p.nonce.toNat) :=
      Fields.get?_of_mem hkeys (hperm.mem_iff.2 (by simp))
    have hticket : fields.get? handleKey = some (Json.int ticket) :=
      Fields.get?_of_mem hkeys (hperm.mem_iff.2 (by simp))
    rw [ticketOf?, hnonce, hticket, hperm.length_eq, Option.bind_some, Option.bind_some,
      natural?_eq_some_iff.2 ⟨p.nonce.toNat_lt, rfl⟩, natural?_eq_some_iff.2 ⟨hlt, rfl⟩]
    simp

/-- A value is a handle of one nonce at most. -/
theorem nonce_unique {other : UInt64} {ticket' : Nat} (h : IsHandle nonce ticket value)
    (hother : IsHandle other ticket' value) : other = nonce := by
  have hp : (new nonce : Pass Unit).ticketOf? value = some ticket := ticketOf?_eq_some_iff.2 h
  have hq : (new other : Pass Unit).ticketOf? value = some ticket' := ticketOf?_eq_some_iff.2 hother
  have hsame := (passOf?_of_ticketOf? hp).symm.trans (passOf?_of_ticketOf? hq)
  exact (UInt64.toNat_inj.1 (Option.some.inj hsame)).symm

/-! ## Placing a value

There are three cases: a handle whose ticket was handed out, a handle of the pass whose ticket was
not, and everything else.  Only the first is placed, and the other two differ in the text of the
fault. -/

theorem placeValue_of_issued (h : IsHandle p.nonce ticket value)
    (hissued : ticket < p.pending.length) :
    p.placeValue value = .ok { p with segments := p.segments ++ [.pending ticket] } := by
  rw [placeValue_eq, ticketOf?_eq_some_iff.2 h]
  simp only [step_place, if_pos hissued]

/-- A value that is no handle of the pass is refused with its text. -/
theorem placeValue_of_foreign (h : ∀ ticket, ¬IsHandle p.nonce ticket value) :
    p.placeValue value
      = .error (.notDeferred value.render, p.recordError (.notDeferred value.render)) := by
  have hnone : p.ticketOf? value = none := by
    rw [Option.eq_none_iff_forall_ne_some]
    exact fun ticket hticket => h ticket (ticketOf?_eq_some_iff.1 hticket)
  rw [placeValue_eq, hnone]

/-- A handle of the pass for a ticket that was not handed out is refused, too.  By then only its
ticket is known, and the refusal has the text of the handle that the pass would make for it. -/
theorem placeValue_of_unissued (h : IsHandle p.nonce ticket value)
    (hlate : p.pending.length ≤ ticket) :
    p.placeValue value = .error (.notDeferred (p.handle ticket).render,
      p.recordError (.notDeferred (p.handle ticket).render)) := by
  rw [placeValue_eq, ticketOf?_eq_some_iff.2 h]
  simp only [if_neg (Nat.not_lt.2 hlate)]

/-- **What becomes of a value**: the handle of a ticket that was handed out is placed, and every other
value is refused. -/
theorem placeValue_cases (p : Pass α) (value : Json) :
    (∃ ticket < p.pending.length, IsHandle p.nonce ticket value ∧
      p.placeValue value = .ok { p with segments := p.segments ++ [.pending ticket] }) ∨
    ((∀ ticket < p.pending.length, ¬IsHandle p.nonce ticket value) ∧
      ∃ fault, p.placeValue value = .error (fault, p.recordError fault)) := by
  cases hticket : p.ticketOf? value with
  | none =>
    have hnone : ∀ ticket, ¬IsHandle p.nonce ticket value := fun ticket hhandle => by
      cases hticket.symm.trans (ticketOf?_eq_some_iff.2 hhandle)
    exact .inr ⟨fun ticket _ => hnone ticket, _, placeValue_of_foreign hnone⟩
  | some ticket =>
    have hhandle := ticketOf?_eq_some_iff.1 hticket
    rcases Nat.lt_or_ge ticket p.pending.length with hissued | hlate
    · exact .inl ⟨ticket, hissued, hhandle, placeValue_of_issued hhandle hissued⟩
    · refine .inr ⟨fun other hother hhandle' => ?_, _, placeValue_of_unissued hhandle hlate⟩
      cases hticket.symm.trans (ticketOf?_eq_some_iff.2 hhandle')
      omega

/-- A value is placed when it is the handle of a ticket that was handed out, and only then. -/
theorem placeValue_ok_iff : (∃ next, p.placeValue value = .ok next) ↔
    ∃ ticket < p.pending.length, IsHandle p.nonce ticket value := by
  rcases p.placeValue_cases value with ⟨ticket, hissued, hhandle, hplaced⟩ | ⟨hnone, fault, hrefused⟩
  · exact ⟨fun _ => ⟨ticket, hissued, hhandle⟩, fun _ => ⟨_, hplaced⟩⟩
  · refine ⟨?_, fun ⟨ticket, hissued, hhandle⟩ => absurd hhandle (hnone ticket hissued)⟩
    rintro ⟨next, hnext⟩
    cases hrefused.symm.trans hnext

end Pass

/-! ## Runs of calls

Faults are recorded until they are taken, and only the first of them is.  So what a later call takes
depends on all calls since the last one that took something. -/

/-- A call on a pass while a template is evaluated. -/
inductive Call (α : Type) where
  | step (call : Step α)
  /-- A value of the template, placed as the handle it should be. -/
  | placeValue (value : Json)
  | record (fault : Fault)
  | take

/-- The values that calls enqueue, in the order of their tickets. -/
def Call.values : List (Call α) → List α
  | [] => []
  | .step call :: rest => Step.values [call] ++ values rest
  | _ :: rest => values rest

theorem Call.values_cons (call : Call α) (rest : List (Call α)) :
    Call.values (call :: rest) = Call.values [call] ++ Call.values rest := by
  cases call <;> simp [Call.values]

namespace Pass

variable {nonce : UInt64}

/-- A pass after a call, whatever it answers. -/
def after (p : Pass α) : Call α → Pass α
  | .step call => p.step call
  | .placeValue value =>
    match p.placeValue value with
    | .ok p => p
    | .error (_, p) => p
  | .record fault => p.recordError fault
  | .take => p.takeError.2

/-- The faults that a call records. -/
def faults (p : Pass α) : Call α → List Fault
  | .placeValue value =>
    match p.placeValue value with
    | .ok _ => []
    | .error (fault, _) => [fault]
  | .record fault => [fault]
  | .step _ | .take => []

/-- The faults that were recorded since they were last taken, first to last, when `since` were
recorded before the calls. -/
def sinceTaken (p : Pass α) (since : List Fault) : List (Call α) → List Fault
  | [] => since
  | .take :: rest => (p.after .take).sinceTaken [] rest
  | call :: rest => (p.after call).sinceTaken (since ++ p.faults call) rest

/-- A call does not change the nonce. -/
theorem after_nonce (p : Pass α) (call : Call α) : (p.after call).nonce = p.nonce := by
  cases call with
  | step call => exact step_nonce p call
  | placeValue value =>
    rcases p.placeValue_cases value with ⟨ticket, -, -, h⟩ | ⟨-, fault, h⟩
    · rw [after, h]
    · rw [after, h]
      rfl
  | record fault => rfl
  | take => rfl

/-- A call adds the values that it defers. -/
theorem after_pending (p : Pass α) (call : Call α) :
    (p.after call).pending = p.pending ++ Call.values [call] := by
  cases call with
  | step call =>
    show (p.step call).pending = _
    simp [step_pending, Call.values]
  | placeValue value =>
    rcases p.placeValue_cases value with ⟨ticket, -, -, h⟩ | ⟨-, fault, h⟩
    · simp [after, h, Call.values]
    · simp [after, h, Call.values, recordError]
  | record fault => simp [after, Call.values, recordError]
  | take => simp [after, Call.values, takeError]

theorem step_error (p : Pass α) (call : Step α) : (p.step call).error = p.error := by
  cases call with
  | enqueue value => rfl
  | text bytes => rfl
  | place ticket => rw [step_place]; split <;> rfl

/-- **A call keeps the first fault, or the one that it records if there was none.** -/
theorem after_error {p : Pass α} {since : List Fault} (h : p.error = since.head?) {call : Call α}
    (hcall : call ≠ .take) : (p.after call).error = (since ++ p.faults call).head? := by
  have hrecord : ∀ fault, (p.recordError fault).error = (since ++ [fault]).head? := by
    intro fault
    rw [recordError, h]
    cases since <;> rfl
  cases call with
  | step call => simpa [after, faults, step_error] using h
  | placeValue value =>
    rcases p.placeValue_cases value with ⟨ticket, -, -, hplaced⟩ | ⟨-, fault, hrefused⟩
    · simpa [after, faults, hplaced] using h
    · simpa [after, faults, hrefused] using hrecord fault
  | record fault => exact hrecord fault
  | take => exact absurd rfl hcall

/-- A pass after a run of calls. -/
def afterAll (p : Pass α) (calls : List (Call α)) : Pass α :=
  calls.foldl after p

theorem afterAll_nonce (p : Pass α) (calls : List (Call α)) :
    (p.afterAll calls).nonce = p.nonce := by
  induction calls generalizing p with
  | nil => rfl
  | cons call rest ih => exact (ih (p.after call)).trans (p.after_nonce call)

theorem afterAll_pending (p : Pass α) (calls : List (Call α)) :
    (p.afterAll calls).pending = p.pending ++ Call.values calls := by
  induction calls generalizing p with
  | nil => simp [afterAll, Call.values]
  | cons call rest ih =>
    rw [Call.values_cons, ← List.append_assoc, ← after_pending]
    exact ih (p.after call)

/-- **The fault that a pass holds is the first since faults were taken**, by induction on the
calls. -/
theorem afterAll_error {p : Pass α} {since : List Fault} (h : p.error = since.head?)
    (calls : List (Call α)) : (p.afterAll calls).error = (p.sinceTaken since calls).head? := by
  induction calls generalizing p since with
  | nil => exact h
  | cons call rest ih =>
    cases call with
    | take => exact ih (p := p.after .take) rfl
    | step call => exact ih (after_error h (by simp))
    | placeValue value => exact ih (after_error h (by simp))
    | record fault => exact ih (after_error h (by simp))

/-- **A pass takes the handles that it handed out, and no other value.**  After any run of calls on
a new pass — values enqueued, texts, tickets and values placed, faults recorded and taken —, for
every value:

1. it can be placed exactly when it is a handle under the nonce of the pass, with its two keys in
   either order, of a ticket below the number of values that were enqueued;
2. then this ticket is put at the end of the segments, and nothing else changes;
3. a value that is no handle under the nonce of the pass is refused as not deferred, with the text of
   the value, and only the fault of the pass may change;
4. a handle under this nonce of a ticket that was not handed out is refused in the same way, and the
   text is that of the handle with its keys in the order of handles: the ticket first, then the nonce;
5. the fault that is taken is the first that was recorded since faults were last taken;
6. a handle under another nonce is refused with its text, whatever its ticket is. -/
theorem placeValue_exact (nonce : UInt64) (calls : List (Call α)) (value : Json) :
    let p := (new nonce).afterAll calls
    ((∃ next, p.placeValue value = .ok next) ↔
      ∃ ticket < (Call.values calls).length, IsHandle nonce ticket value) ∧
    (∀ ticket < (Call.values calls).length, IsHandle nonce ticket value →
      p.placeValue value = .ok { p with segments := p.segments ++ [.pending ticket] }) ∧
    ((∀ ticket, ¬IsHandle nonce ticket value) →
      p.placeValue value = .error (.notDeferred value.render,
        { p with error := p.error <|> some (.notDeferred value.render) })) ∧
    (∀ ticket ≥ (Call.values calls).length, IsHandle nonce ticket value →
      let shown := Json.object [(handleKey, Json.int ticket), (passKey, Json.int nonce.toNat)]
      p.placeValue value = .error (.notDeferred shown.render,
        { p with error := p.error <|> some (.notDeferred shown.render) })) ∧
    p.takeError.1 = ((new nonce).sinceTaken [] calls).head? ∧
    (∀ (other : UInt64) (ticket : Nat), other ≠ nonce → IsHandle other ticket value →
      p.placeValue value = .error (.notDeferred value.render,
        { p with error := p.error <|> some (.notDeferred value.render) })) := by
  intro p
  have hnonce : p.nonce = nonce := afterAll_nonce (new nonce) calls
  have hpending : p.pending.length = (Call.values calls).length := by
    rw [show p.pending = _ from afterAll_pending (new nonce) calls]
    rfl
  rw [← hpending, ← hnonce]
  refine ⟨placeValue_ok_iff, fun ticket hissued hhandle => placeValue_of_issued hhandle hissued,
    placeValue_of_foreign, fun ticket hlate hhandle => placeValue_of_unissued hhandle hlate,
    hnonce ▸ afterAll_error rfl calls, fun other ticket hne hother => ?_⟩
  exact placeValue_of_foreign fun ticket hhandle => hne (nonce_unique hhandle hother)

/-- The handle of the eighth ticket under the nonce 3, with the nonce first. -/
def turnedHandle : Json := .object [(passKey, Json.int 3), (handleKey, Json.int 7)]

/-- **A refusal may have another text than the value**: a pass that has handed out nothing refuses a
handle of its own with the keys in the order of handles, whatever their order was. -/
theorem exists_placeValue_text_ne : ¬ ∀ (nonce : UInt64) (calls : List (Call Unit)) (value : Json),
    (∀ ticket < (Call.values calls).length, ¬IsHandle nonce ticket value) →
    ∃ next, ((new nonce).afterAll calls).placeValue value
      = .error (.notDeferred value.render, next) := by
  intro hall
  obtain ⟨next, hrefused⟩ := hall 3 [] turnedHandle (fun ticket h => absurd h (Nat.not_lt_zero _))
  have hturned : IsHandle 3 7 turnedHandle := ⟨by decide, _, rfl, .swap _ _ []⟩
  rw [placeValue_of_unissued hturned (Nat.zero_le _)] at hrefused
  have htext := congrArg Prod.fst (Except.error.inj hrefused)
  exact absurd (Fault.notDeferred.inj htext) (by with_unfolding_all decide)

end Pass
end Deferred
end Frontispiece
