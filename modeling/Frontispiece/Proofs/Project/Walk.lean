import Frontispiece.Project.Variant
import Mathlib.Data.List.Nodup
import Mathlib.Data.List.Perm.Subperm

/-!
# The walk from a variant

A variant is made from the one descriptor that has the output it names, which may be a variant
again.  Following this leads to a descriptor that is none, or to a variant for which there is not
one such descriptor, or around in a loop for ever.

## What is here

* `MadeFrom`, `Walk` — one step, and any number of steps with the variants that are passed.
* `Walk.unique` — there is only one way to go, so that walks to ends are the same.
* `Walk.length_le` — without an input coming twice, a walk is no longer than the registry.  This is
  what bounds the walk; nothing else does.
* `exists_end` — every walk comes to a base, to a variant that it cannot go on from, or to an input
  that it has seen.  `endless_of_repeat` says that the last is a loop.

That a walk ends or runs in a loop is a matter of counting descriptors, as there are finitely many
and the next one is always determined.  Inputs are what is counted, not descriptors, since a loop is
noticed by an input that comes again; two descriptors with one input are followed in the same way.
-/

set_option autoImplicit false

namespace Frontispiece
namespace Project

/-- The descriptors with an output. -/
def Registry.producers (r : Registry) (output : String) : Registry :=
  r.filter fun d => d.out == some output

/-- A variant is made from the only descriptor with the output that it names. -/
def MadeFrom (r : Registry) (d e : Descriptor) : Prop :=
  d.kind.isVariant = true ∧ r.producers d.input = [e]

/-- The walk from a descriptor to one that it leads to, with the variants that are passed. -/
inductive Walk (r : Registry) : Descriptor → List Descriptor → Descriptor → Prop where
  | here (d : Descriptor) : Walk r d [] d
  | step {d e f : Descriptor} {vs : List Descriptor} (hd : MadeFrom r d e) (h : Walk r e vs f) :
    Walk r d (d :: vs) f

/-- The walk goes on for ever: whatever it leads to is a variant of one descriptor. -/
def Endless (r : Registry) (v : Descriptor) : Prop :=
  ∀ vs d, Walk r v vs d → ∃ e, MadeFrom r d e

variable {r r' : Registry} {v d e b : Descriptor} {vs ws : List Descriptor}

theorem MadeFrom.unique {f : Descriptor} (h : MadeFrom r d e) (h' : MadeFrom r d f) : e = f := by
  have hsame := h.2.symm.trans h'.2
  exact List.head_eq_of_cons_eq hsame

theorem MadeFrom.mem (h : MadeFrom r d e) : e ∈ r := by
  have hmem : e ∈ r.producers d.input := by rw [h.2]; exact List.mem_singleton_self e
  exact List.mem_of_mem_filter hmem

/-- What a variant is made from is said by its input. -/
theorem MadeFrom.of_input_eq {w : Descriptor} (h : MadeFrom r d e) (hw : w.kind.isVariant = true)
    (heq : w.input = d.input) : MadeFrom r w e :=
  ⟨hw, heq ▸ h.2⟩

namespace Walk

/-- One step more at the end. -/
theorem snoc (h : Walk r v vs d) (hd : MadeFrom r d e) : Walk r v (vs ++ [d]) e := by
  induction h with
  | here d => exact .step hd (.here e)
  | step hfirst _ ih => exact .step hfirst (ih hd)

/-- **There is only one way to go**: walks that cannot go on are the same. -/
theorem unique {f : Descriptor} (h : Walk r v vs d) (h' : Walk r v ws f)
    (hd : ∀ e, ¬MadeFrom r d e) (hf : ∀ e, ¬MadeFrom r f e) : vs = ws ∧ d = f := by
  induction h generalizing ws with
  | here d =>
    cases h' with
    | here => exact ⟨rfl, rfl⟩
    | step hstep _ => exact absurd hstep (hd _)
  | step hstep _ ih =>
    cases h' with
    | here => exact absurd hstep (hf _)
    | step hstep' h' =>
      obtain rfl := hstep.unique hstep'
      obtain ⟨rfl, rfl⟩ := ih h' hd
      exact ⟨rfl, rfl⟩

/-- What is passed is a variant, made from what comes next. -/
theorem madeFrom_of_mem (h : Walk r v vs d) {w : Descriptor} (hw : w ∈ vs) :
    ∃ e, MadeFrom r w e ∧ (e ∈ vs ∨ e = d) := by
  induction h with
  | here d => cases hw
  | @step v e d vs hstep h ih =>
    rcases List.mem_cons.1 hw with rfl | hw
    · refine ⟨e, hstep, ?_⟩
      cases h with
      | here => exact .inr rfl
      | step _ _ => exact .inl (List.mem_cons_of_mem _ List.mem_cons_self)
    · obtain ⟨e', he', hmem⟩ := ih hw
      exact ⟨e', he', hmem.imp_left (List.mem_cons_of_mem _)⟩

/-- All but the first of what is passed is in the registry. -/
theorem tail_subset (h : Walk r v vs d) : vs.tail ⊆ r := by
  induction h with
  | here d => exact List.nil_subset r
  | @step v e d vs hstep h ih =>
    intro w hw
    cases h with
    | here => cases hw
    | step hnext _ =>
      rcases List.mem_cons.1 hw with rfl | hw
      · exact hstep.mem
      · exact ih hw

/-- **Without an input that comes twice, a walk is no longer than the registry.** -/
theorem length_le (h : Walk r v vs d) (hnodup : (vs.map Descriptor.input).Nodup) :
    vs.length ≤ r.length + 1 := by
  have htail : vs.tail.Nodup := (List.Nodup.of_map _ hnodup).sublist (List.tail_sublist vs)
  have hle := (List.Nodup.subperm htail h.tail_subset).length_le
  rw [List.length_tail] at hle
  omega

section

variable (h : Walk r v vs d) (hd : d.kind.isVariant = true)
  (hrepeat : d.input ∈ vs.map Descriptor.input)
include h hd hrepeat

/-- When an input comes twice, all that was passed goes on to what was passed. -/
theorem madeFrom_of_repeat {u : Descriptor} (hu : u ∈ vs ∨ u = d) :
    ∃ e, MadeFrom r u e ∧ (e ∈ vs ∨ e = d) := by
  rcases hu with hu | rfl
  · exact h.madeFrom_of_mem hu
  · obtain ⟨w, hw, hinput⟩ := List.mem_map.1 hrepeat
    obtain ⟨e, he, hmem⟩ := h.madeFrom_of_mem hw
    exact ⟨e, he.of_input_eq hd hinput.symm, hmem⟩

/-- What was passed is not left again, by induction on the walk from there. -/
theorem mem_of_repeat {u f : Descriptor} (hwalk : Walk r u ws f) (hu : u ∈ vs ∨ u = d) :
    f ∈ vs ∨ f = d := by
  induction hwalk with
  | here f => exact hu
  | step hstep _ ih =>
    obtain ⟨e, he, hmem⟩ := h.madeFrom_of_repeat hd hrepeat hu
    exact ih (hstep.unique he ▸ hmem)

end

end Walk

/-- An input that comes twice makes a loop, which the walk does not leave. -/
theorem endless_of_repeat (h : Walk r v vs d) (hd : d.kind.isVariant = true)
    (hrepeat : d.input ∈ vs.map Descriptor.input) : Endless r v := by
  intro ws f hwalk
  have hstart : v ∈ vs ∨ v = d := by
    cases h with
    | here => exact .inr rfl
    | step _ _ => exact .inl List.mem_cons_self
  have hmem := h.mem_of_repeat hd hrepeat hwalk hstart
  obtain ⟨e, he, -⟩ := h.madeFrom_of_repeat hd hrepeat hmem
  exact ⟨e, he⟩

/-- Where a walk ends. -/
inductive End (r : Registry) (vs : List Descriptor) (d : Descriptor) : Prop where
  /-- At a descriptor that is no variant. -/
  | base (hd : d.kind.isVariant = false)
  /-- At a variant for which there is not one descriptor. -/
  | stuck (hd : d.kind.isVariant = true) (hnone : ∀ e, r.producers d.input ≠ [e])
  /-- At a variant with an input that was passed. -/
  | loop (hd : d.kind.isVariant = true) (hrepeat : d.input ∈ vs.map Descriptor.input)

/-- A walk comes to an end, by induction on how much longer it can be. -/
theorem Walk.reaches_end (n : Nat) (h : Walk r v vs d) (hnodup : (vs.map Descriptor.input).Nodup)
    (hlt : r.length + 1 < vs.length + n) :
    ∃ vs d, Walk r v vs d ∧ (vs.map Descriptor.input).Nodup ∧ End r vs d := by
  induction n generalizing vs d with
  | zero => exact absurd (h.length_le hnodup) (by omega)
  | succ n ih =>
    cases hd : d.kind.isVariant with
    | false => exact ⟨vs, d, h, hnodup, .base hd⟩
    | true =>
      by_cases hrepeat : d.input ∈ vs.map Descriptor.input
      · exact ⟨vs, d, h, hnodup, .loop hd hrepeat⟩
      · by_cases hone : ∃ e, r.producers d.input = [e]
        · obtain ⟨e, he⟩ := hone
          have hinputs : ((vs ++ [d]).map Descriptor.input).Nodup := by
            rw [List.map_append, List.map_singleton, ← List.concat_eq_append]
            exact hnodup.concat hrepeat
          refine ih (h.snoc ⟨hd, he⟩) hinputs ?_
          rw [List.length_append, List.length_singleton]
          omega
        · exact ⟨vs, d, h, hnodup, .stuck hd fun e he => hone ⟨e, he⟩⟩

/-- **Every walk comes to an end**, and passes no input twice on the way there. -/
theorem exists_end (r : Registry) (v : Descriptor) :
    ∃ vs d, Walk r v vs d ∧ (vs.map Descriptor.input).Nodup ∧ End r vs d :=
  (Walk.here v).reaches_end (r.length + 2) .nil (by simp)

/-! ## The order of a registry does not matter

Which descriptor a variant is made from is a question about how many there are with an output, and
not about where they stand. -/

theorem Registry.producers_perm (h : r.Perm r') (output : String) :
    (r.producers output).Perm (r'.producers output) :=
  h.filter _

theorem MadeFrom.of_perm (h : r.Perm r') (hd : MadeFrom r d e) : MadeFrom r' d e := by
  have hperm := Registry.producers_perm h d.input
  rw [hd.2] at hperm
  exact ⟨hd.1, List.singleton_perm.1 hperm |>.symm⟩

theorem Walk.of_perm (h : r.Perm r') (hwalk : Walk r v vs d) : Walk r' v vs d := by
  induction hwalk with
  | here d => exact .here d
  | step hstep _ ih => exact .step (hstep.of_perm h) ih

end Project
end Frontispiece
