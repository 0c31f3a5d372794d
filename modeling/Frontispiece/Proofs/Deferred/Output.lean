import Frontispiece.Deferred.Pass
import Mathlib.Data.List.Chain

/-!
# The output of a pass

A pass keeps its output as segments, and text that is pushed in several pieces is merged as it
comes.  This file says what the segments amount to, whatever the pieces were: `Pass.items` lays the
output out byte by byte, and `Step.written` says what a run of calls writes without looking at
segments at all.

## What is here

* `Step` — a call on a pass, and `Pass.run`, a run of calls.  Clones of a pass share its state, so
  calls through several clones are one run in the order in which they are made.
* `appendText_items`, `appendText_merged` — the two things that pushing text must do: add its bytes
  at the end, and leave no two texts side by side.
* `run_items`, `run_pending`, `run_merged` — the same for whole runs, by induction on the calls.
* `written_issued` — only tickets that were handed out are ever placed.

A pass is a state machine with a few calls, and the theorems are about all sequences of calls.  Each
has the same shape: one lemma for one call, and an induction.  Since the state after some calls is
not a simple function of them, it is described by two lists that are: the values that were enqueued,
and the items that were written.
-/

set_option autoImplicit false

namespace Frontispiece
namespace Deferred

variable {α : Type}

/-- A call on a pass. -/
inductive Step (α : Type) where
  | enqueue (value : α)
  /-- Text, pushed or written by a writer of the pass. -/
  | text (bytes : ByteArray)
  | place (ticket : Nat)

/-- A byte of the output, or the place of a value in it. -/
inductive Item where
  | byte (byte : UInt8)
  | value (ticket : Nat)
  deriving DecidableEq, Repr

/-- The items of a text. -/
def textItems (bytes : ByteArray) : List Item :=
  bytes.data.toList.map .byte

namespace Step

/-- The values that calls enqueue, in the order of their tickets. -/
def values : List (Step α) → List α
  | [] => []
  | .enqueue value :: rest => value :: values rest
  | _ :: rest => values rest

/-- What calls write when `issued` tickets were handed out before: all text, and the placements of
tickets that were handed out by then. -/
def written (issued : Nat) : List (Step α) → List Item
  | [] => []
  | .enqueue _ :: rest => written (issued + 1) rest
  | .text bytes :: rest => textItems bytes ++ written issued rest
  | .place ticket :: rest =>
    if ticket < issued then .value ticket :: written issued rest else written issued rest

end Step

namespace Segment

/-- Whether a segment is text. -/
def isText : Segment → Bool
  | .text _ => true
  | .pending _ => false

/-- The items of a segment. -/
def items : Segment → List Item
  | .text bytes => textItems bytes
  | .pending ticket => [.value ticket]

end Segment

/-- No two texts stand side by side. -/
def Merged (segments : List Segment) : Prop :=
  segments.IsChain fun a b => ¬(a.isText = true ∧ b.isText = true)

/-- A placement at the end keeps texts apart. -/
theorem Merged.append_pending {segments : List Segment} (h : Merged segments) (ticket : Nat) :
    Merged (segments ++ [.pending ticket]) := by
  refine List.isChain_append.2 ⟨h, List.isChain_singleton _, ?_⟩
  intro a _ b hb
  simp only [List.head?_cons, Option.mem_def, Option.some.injEq] at hb
  subst hb
  simp [Segment.isText]

namespace Pass

/-- A pass after one call; a placement that is refused changes nothing. -/
def step (p : Pass α) : Step α → Pass α
  | .enqueue value => (p.enqueue value).1
  | .text bytes => p.pushText bytes
  | .place ticket =>
    match p.place ticket with
    | .ok p => p
    | .error _ => p

/-- A pass after a run of calls. -/
def run (p : Pass α) (steps : List (Step α)) : Pass α :=
  steps.foldl step p

/-- The output, byte by byte and place by place. -/
def items (p : Pass α) : List Item :=
  p.segments.flatMap Segment.items

/-! ## Pushing text

Text that comes after text goes to the same segment.  So segments cannot be counted by calls, and
`items` forgets where one ends and the next begins. -/

theorem textItems_append (a b : ByteArray) : textItems (a ++ b) = textItems a ++ textItems b := by
  simp [textItems]

/-- Pushed text comes after everything that is there. -/
theorem appendText_items (bytes : ByteArray) : ∀ segments : List Segment,
    (appendText bytes segments).flatMap Segment.items
      = segments.flatMap Segment.items ++ textItems bytes
  | [] => by simp [appendText, Segment.items]
  | [.text before] => by simp [appendText, Segment.items, textItems_append]
  | [.pending ticket] => by simp [appendText, Segment.items]
  | .text _ :: b :: rest => by
    simp only [appendText, List.flatMap_cons, appendText_items bytes (b :: rest),
      List.append_assoc]
  | .pending _ :: b :: rest => by
    simp only [appendText, List.flatMap_cons, appendText_items bytes (b :: rest),
      List.append_assoc]

/-- Pushing text to a list that is not empty leaves its first segment of the kind that it was. -/
theorem appendText_cons_isText (bytes : ByteArray) (a : Segment) (rest : List Segment) :
    ∃ a' rest', appendText bytes (a :: rest) = a' :: rest' ∧ a'.isText = a.isText := by
  match a, rest with
  | .text before, [] => exact ⟨.text (before ++ bytes), [], rfl, rfl⟩
  | .pending ticket, [] => exact ⟨.pending ticket, [.text bytes], rfl, rfl⟩
  | .text before, b :: rest => exact ⟨.text before, appendText bytes (b :: rest), rfl, rfl⟩
  | .pending ticket, b :: rest =>
    exact ⟨.pending ticket, appendText bytes (b :: rest), rfl, rfl⟩

/-- **Pushing text never puts two texts side by side.** -/
theorem appendText_merged (bytes : ByteArray) :
    ∀ {segments : List Segment}, Merged segments → Merged (appendText bytes segments)
  | [], _ => List.isChain_singleton _
  | [.text _], _ => List.isChain_singleton _
  | [.pending _], _ => by simp [Merged, appendText, Segment.isText]
  | a :: b :: rest, h => by
    obtain ⟨hab, hrest⟩ := List.isChain_cons_cons.1 h
    obtain ⟨b', rest', heq, hb'⟩ := appendText_cons_isText bytes b rest
    have ih : Merged (appendText bytes (b :: rest)) := appendText_merged bytes hrest
    have hstep : appendText bytes (a :: b :: rest) = a :: appendText bytes (b :: rest) := by
      cases a <;> rfl
    rw [hstep, heq] at *
    exact List.isChain_cons_cons.2 ⟨by rwa [hb'], ih⟩

/-! ## One call

A call adds a value, adds text, places a ticket or changes nothing.  Each of these is one line about
what was pending and one about the output. -/

@[simp] theorem step_enqueue (p : Pass α) (value : α) :
    p.step (.enqueue value) = { p with pending := p.pending ++ [value] } := rfl

@[simp] theorem step_text (p : Pass α) (bytes : ByteArray) :
    p.step (.text bytes) = { p with segments := appendText bytes p.segments } := rfl

/-- **A ticket that was handed out is placed at the end; any other is refused.** -/
theorem step_place (p : Pass α) (ticket : Nat) :
    p.step (.place ticket)
      = if ticket < p.pending.length then { p with segments := p.segments ++ [.pending ticket] }
        else p := by
  rw [step, place]
  by_cases h : ticket < p.pending.length
  · simp only [if_pos h]
  · simp only [if_neg h]

/-- A pass keeps its nonce. -/
theorem step_nonce (p : Pass α) (s : Step α) : (p.step s).nonce = p.nonce := by
  cases s with
  | enqueue value => rfl
  | text bytes => rfl
  | place ticket => rw [step_place]; split <;> rfl

theorem step_pending (p : Pass α) (s : Step α) :
    (p.step s).pending = p.pending ++ Step.values [s] := by
  cases s with
  | enqueue value => rfl
  | text bytes => simp [Step.values]
  | place ticket => rw [step_place]; split <;> simp [Step.values]

theorem step_items (p : Pass α) (s : Step α) :
    (p.step s).items = p.items ++ Step.written p.pending.length [s] := by
  cases s with
  | enqueue value => simp [items, Step.written]
  | text bytes => simp [items, Step.written, appendText_items]
  | place ticket => rw [step_place]; split <;> simp [items, Step.written, Segment.items, *]

theorem step_merged {p : Pass α} (h : Merged p.segments) (s : Step α) :
    Merged (p.step s).segments := by
  cases s with
  | enqueue value => exact h
  | text bytes => exact appendText_merged bytes h
  | place ticket =>
    rw [step_place]
    split
    · exact h.append_pending ticket
    · exact h

/-! ## Runs

By induction on the calls.  What a run leaves is said in terms of the calls alone: the values in the
order of their tickets, and the output in the order in which it was written. -/

theorem run_cons (p : Pass α) (s : Step α) (rest : List (Step α)) :
    p.run (s :: rest) = (p.step s).run rest := rfl

theorem values_cons (s : Step α) (rest : List (Step α)) :
    Step.values (s :: rest) = Step.values [s] ++ Step.values rest := by
  cases s <;> rfl

theorem written_cons (issued : Nat) (s : Step α) (rest : List (Step α)) :
    Step.written issued (s :: rest)
      = Step.written issued [s] ++ Step.written (issued + (Step.values [s]).length) rest := by
  cases s with
  | enqueue value => rfl
  | text bytes => simp [Step.written, Step.values]
  | place ticket => simp only [Step.written, Step.values]; split <;> rfl

/-- The values of a run, under their tickets. -/
theorem run_pending (p : Pass α) (steps : List (Step α)) :
    (p.run steps).pending = p.pending ++ Step.values steps := by
  induction steps generalizing p with
  | nil => simp [run, Step.values]
  | cons s rest ih => rw [run_cons, ih, step_pending, List.append_assoc, ← values_cons]

/-- **A run writes its texts and accepted placements in the order of its calls.** -/
theorem run_items (p : Pass α) (steps : List (Step α)) :
    (p.run steps).items = p.items ++ Step.written p.pending.length steps := by
  induction steps generalizing p with
  | nil => simp [run, Step.written]
  | cons s rest ih =>
    rw [run_cons, ih, step_items, step_pending, List.length_append, List.append_assoc,
      ← written_cons]

theorem run_merged {p : Pass α} (h : Merged p.segments) (steps : List (Step α)) :
    Merged (p.run steps).segments := by
  induction steps generalizing p with
  | nil => exact h
  | cons s rest ih => exact ih (step_merged h s)

/-- What calls write names only tickets that they, or calls before them, were handed out. -/
theorem written_issued {ticket : Nat} : ∀ (steps : List (Step α)) {issued : Nat},
    Item.value ticket ∈ Step.written issued steps → ticket < issued + (Step.values steps).length
  | [], _, h => by simp [Step.written] at h
  | .enqueue _ :: rest, issued, h => by
    have ih := written_issued rest h
    simp only [Step.values, List.length_cons]
    omega
  | .text bytes :: rest, issued, h => by
    simp only [Step.written, textItems, List.mem_append, List.mem_map, reduceCtorEq, and_false,
      exists_false, false_or] at h
    exact written_issued rest h
  | .place other :: rest, issued, h => by
    simp only [Step.written] at h
    split at h
    · rcases List.mem_cons.1 h with heq | h
      · cases heq
        simp only [Step.values]
        omega
      · exact written_issued rest h
    · exact written_issued rest h

end Pass
end Deferred
end Frontispiece
