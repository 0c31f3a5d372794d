import Frontispiece.Proofs.Drawing.Operation
import Mathlib.Data.List.Basic
import Mathlib.Logic.Relation

/-!
# What is below a node

The nodes below a node are its children, and theirs, and so on.  The walk that lists them has a
number as fuel; in a well-formed document that is enough, because children come after their parents.

## What is here

* `Below` — a node is reached from another by going from parents to children.
* `WellFormed.descendants_eq` — the list of a node is made of the lists of its children.
* `WellFormed.mem_descendants_iff` — it has exactly the nodes below.
* `WellFormed.branch_congr` — a branch is known by its node and those below.

The program lists what is below a node with a stack, and the relation is the transitive closure of
being a child.  Between the two stands the recursion with fuel.  Its lemmas are stated without fuel
as soon as possible: children come after their parents, so there is a measure, and with it a lemma
about a node may use what is known of all later ones.
-/

set_option autoImplicit false

namespace Frontispiece
namespace Drawing
namespace Document

variable {doc : Document} {id child : NodeId}

/-- One node or more down from a node, along lists of children. -/
def Below (doc : Document) : NodeId → NodeId → Prop :=
  Relation.TransGen fun parent child => child ∈ doc.children parent

/-- The children of a node, or of one below it, are below the node. -/
theorem below_of_mem_children {parent : NodeId} (hparent : parent = id ∨ doc.Below id parent)
    (hchild : child ∈ doc.children parent) : doc.Below id child := by
  rcases hparent with rfl | hbelow
  · exact .single hchild
  · exact hbelow.tail hchild

/-- Fuel for the nodes from `id` on is enough, and more changes nothing. -/
theorem WellFormed.descendantsWithin_congr (h : doc.WellFormed) : ∀ m n id : Nat,
    id < doc.nodes.size → doc.nodes.size ≤ id + m → doc.nodes.size ≤ id + n →
    doc.descendantsWithin m id = doc.descendantsWithin n id
  | 0, _, id, hid, hm, _ => absurd hid (by omega)
  | _ + 1, 0, id, hid, _, hn => absurd hid (by omega)
  | m + 1, n + 1, id, hid, hm, hn => by
    rw [descendantsWithin, descendantsWithin]
    refine List.flatMap_congr fun child hchild => ?_
    obtain ⟨hafter, hlt⟩ := h.children_after hchild
    rw [h.descendantsWithin_congr m n child hlt (by omega) (by omega)]

/-- **What is below a node is its children, each followed by what is below it.** -/
theorem WellFormed.descendants_eq (h : doc.WellFormed) (hid : id < doc.nodes.size) :
    doc.descendants id = (doc.children id).flatMap fun child => child :: doc.descendants child := by
  have hone : doc.descendants id = doc.descendantsWithin (doc.nodes.size + 1) id :=
    h.descendantsWithin_congr _ _ id hid (by omega) (by omega)
  rw [hone, descendantsWithin]
  rfl

theorem WellFormed.mem_descendants (h : doc.WellFormed) (hid : id < doc.nodes.size)
    {other : NodeId} : other ∈ doc.descendants id ↔
      ∃ child ∈ doc.children id, other = child ∨ other ∈ doc.descendants child := by
  rw [h.descendants_eq hid, List.mem_flatMap]
  simp only [List.mem_cons]

/-- What is listed is below, by induction on the nodes that come after. -/
theorem WellFormed.below_of_mem (h : doc.WellFormed) (id : Nat) (hid : id < doc.nodes.size)
    {other : NodeId} (hmem : other ∈ doc.descendants id) : doc.Below id other := by
  obtain ⟨child, hchild, heq | hbelow⟩ := (h.mem_descendants hid).1 hmem
  · rw [heq]
    exact .single hchild
  · obtain ⟨hafter, hlt⟩ := h.children_after hchild
    exact .head hchild (h.below_of_mem child hlt hbelow)
termination_by doc.nodes.size - id

/-- **The walk lists exactly the nodes below.** -/
theorem WellFormed.mem_descendants_iff (h : doc.WellFormed) (hid : id < doc.nodes.size)
    {other : NodeId} : other ∈ doc.descendants id ↔ doc.Below id other := by
  refine ⟨h.below_of_mem id hid, fun hbelow => ?_⟩
  induction hbelow using Relation.TransGen.head_induction_on with
  | single hchild => exact (h.mem_descendants hid).2 ⟨_, hchild, .inl rfl⟩
  | head hchild _ ih =>
    exact (h.mem_descendants hid).2 ⟨_, hchild, .inr (ih (h.children_after hchild).2)⟩

theorem WellFormed.lt_of_below (h : doc.WellFormed) {other : NodeId} (hbelow : doc.Below id other) :
    id < other ∧ other < doc.nodes.size := by
  induction hbelow with
  | single hchild => exact h.children_after hchild
  | tail _ hchild ih =>
    obtain ⟨hafter, hlt⟩ := h.children_after hchild
    exact ⟨Nat.lt_trans ih.1 hafter, hlt⟩

/-- **A branch is the same in two documents when its nodes are**, by induction on the nodes that come
after. -/
theorem WellFormed.branch_congr {now : Document} (h : doc.WellFormed) (hnow : now.WellFormed)
    (id : Nat) (hid : id < doc.nodes.size)
    (hsame : ∀ other, other = id ∨ doc.Below id other →
      now.kind? other = doc.kind? other ∧ now.children other = doc.children other) :
    now.branch id = doc.branch id := by
  obtain ⟨hkind, hchildren⟩ := hsame id (.inl rfl)
  have hlt : id < now.nodes.size := by
    rw [kind?, kind?, Array.getElem?_eq_getElem hid] at hkind
    exact lt_of_kind? hkind
  rw [hnow.branch_eq hlt, h.branch_eq hid, hkind, hchildren]
  congr 1
  refine List.map_congr_left fun child hchild => ?_
  refine h.branch_congr hnow child (h.children_after hchild).2 fun other hother => hsame other ?_
  rcases hother with rfl | hbelow
  · exact .inr (.single hchild)
  · exact .inr (.head hchild hbelow)
termination_by doc.nodes.size - id
decreasing_by
  have hafter := (h.children_after hchild).1
  omega

end Document
end Drawing
end Frontispiece
