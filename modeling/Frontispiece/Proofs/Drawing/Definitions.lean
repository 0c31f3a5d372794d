import Frontispiece.Proofs.Drawing.Frame

/-!
# Definitions in front

The definitions of a drawing hang at the root.  They are searched for each time they are wanted, and
the first child with the tag is taken.  When they are made, they are made as the first child, so as
long as nothing else puts an element with their tag at the root, there is at most one, in front.

## What is here

* `definitions` — the children of the root with the tag of definitions.
* `DefsFirst` — no child of the root but the first is one.  There is a lemma for each operation that
  keeps this so.
* `DefsFirst.length_le`, `DefsFirst.head?_eq` — so there is at most one, and it is in front.

There are two ways in which a second element for definitions could come about: one is made although
there is one, or one is put at the root in some other way.  The first does not happen since they are
searched for first.  The second is up to the scene and has to be excluded by a hypothesis where
scenes are spoken of.
-/

set_option autoImplicit false

namespace Frontispiece
namespace Drawing
namespace Document

variable {doc now : Document} {parent id d : NodeId}

/-- The children of the root that are elements for definitions. -/
def definitions (doc : Document) : List NodeId :=
  (doc.children root).filter fun child => doc.tag? child == some "defs"

theorem mem_definitions : d ∈ doc.definitions ↔ doc.IsDefs d := by
  simp [definitions, IsDefs]

/-- No child of the root but the first is an element for definitions. -/
def DefsFirst (doc : Document) : Prop :=
  ∀ child ∈ (doc.children root).tail, doc.tag? child ≠ some "defs"

theorem definitions_eq_nil (h : ∀ child ∈ doc.children root, doc.tag? child ≠ some "defs") :
    doc.definitions = [] :=
  List.filter_eq_nil_iff.2 fun child hchild => by simpa using h child hchild

namespace DefsFirst

/-- **Definitions in front are the only ones.** -/
theorem eq_singleton (h : doc.DefsFirst) (hd : d ∈ doc.definitions) :
    doc.definitions = [d] ∧ (doc.children root).head? = some d := by
  obtain ⟨hchild, htag⟩ := mem_definitions.1 hd
  rw [DefsFirst] at h
  rw [definitions]
  cases hchildren : doc.children root with
  | nil =>
    rw [hchildren] at hchild
    cases hchild
  | cons first rest =>
    rw [hchildren] at hchild h
    have hrest : rest.filter (fun child => doc.tag? child == some "defs") = [] :=
      List.filter_eq_nil_iff.2 fun child hmem => by simpa using h child hmem
    rcases List.mem_cons.1 hchild with rfl | hmem
    · rw [List.filter_cons_of_pos (by simp [htag]), hrest]
      exact ⟨rfl, rfl⟩
    · exact absurd htag (h d hmem)

theorem length_le (h : doc.DefsFirst) : doc.definitions.length ≤ 1 := by
  cases hdefs : doc.definitions with
  | nil => exact Nat.zero_le 1
  | cons d rest =>
    rw [← hdefs, (h.eq_singleton (hdefs ▸ List.mem_cons_self)).1]
    exact Nat.le_refl 1

theorem head?_eq (h : doc.DefsFirst) (hd : d ∈ doc.definitions) :
    (doc.children root).head? = some d :=
  (h.eq_singleton hd).2

/-! ## Operations

An operation can harm the order only at the root: by a new child with the tag of definitions, or by
a child that comes in front.  So each lemma comes down to `of_children`, which asks what became of
the children of the root. -/

/-- What counts is that tags stay, and that children of the root which are new, or all that there
are, are none for definitions. -/
theorem of_children (hdoc : doc.WellFormed) (h : doc.DefsFirst) {kept new : List NodeId}
    (hkept : kept = doc.children root ∨ kept = []) (hchildren : now.children root = kept ++ new)
    (htag : ∀ child < doc.nodes.size, now.tag? child = doc.tag? child)
    (hnew : ∀ child ∈ new, now.tag? child ≠ some "defs") : now.DefsFirst := by
  rw [DefsFirst, hchildren]
  intro child hchild
  rcases hkept with rfl | rfl
  · have hmem : child ∈ (doc.children root).tail ∨ child ∈ new := by
      cases hold : doc.children root with
      | nil =>
        rw [hold] at hchild
        exact .inr (List.mem_of_mem_tail hchild)
      | cons first rest =>
        rw [hold] at hchild
        exact List.mem_append.1 hchild
    rcases hmem with hold | hadded
    · rw [htag child (hdoc.children_after (List.mem_of_mem_tail hold)).2]
      exact h child hold
    · exact hnew child hadded
  · exact hnew child (List.mem_of_mem_tail hchild)

theorem modifyAttrs (h : doc.DefsFirst) (id : NodeId) (f : Fields String → Fields String) :
    (doc.modifyAttrs id f).DefsFirst := by
  intro child hchild
  rw [children_modifyAttrs] at hchild
  rw [tag?_modifyAttrs]
  exact h child hchild

theorem clear (hdoc : doc.WellFormed) (h : doc.DefsFirst) (id : NodeId) :
    (doc.clear id).DefsFirst := by
  have htag : ∀ child < doc.nodes.size, (doc.clear id).tag? child = doc.tag? child :=
    fun child _ => tag?_modifyNode doc id child fun _ => rfl
  have hchildren := children_clear doc id root
  by_cases heq : root = id
  · rw [if_pos heq] at hchildren
    exact h.of_children hdoc (.inr rfl) hchildren htag (by simp)
  · rw [if_neg heq, ← List.append_nil (doc.children root)] at hchildren
    exact h.of_children hdoc (.inl rfl) hchildren htag (by simp)

/-- Nodes that are made below a node leave the definitions in front, unless they are definitions at
the root themselves. -/
theorem grows (hdoc : doc.WellFormed) (h : doc.DefsFirst) (hparent : parent < doc.nodes.size)
    (hgrows : Grows doc parent now)
    (hnew : parent = root → ∀ child ∈ now.children root, child ∉ doc.children root →
      now.tag? child ≠ some "defs") : now.DefsFirst := by
  obtain ⟨hchange, new, hchildren, hafter⟩ := Changes.grows hparent hgrows
  by_cases heq : parent = root
  · subst heq
    refine h.of_children hdoc (.inl rfl) hchildren hchange.tag?_eq fun child hchild => ?_
    refine hnew rfl child (hchildren ▸ List.mem_append_right _ hchild) fun hold => ?_
    exact Nat.not_lt.2 (hafter child hchild) (hdoc.children_after hold).2
  · have hroot := children_of_getElem? (hchange.same root hdoc.root_lt (Ne.symm heq))
    rw [← List.append_nil (doc.children root)] at hroot
    exact h.of_children hdoc (.inl rfl) hroot hchange.tag?_eq (by simp)

/-- A new node that is no element for definitions leaves those that there are in front. -/
theorem pushNode (hdoc : doc.WellFormed) (h : doc.DefsFirst) (hparent : parent < doc.nodes.size)
    {kind : NodeKind} (hkind : kind.tag? ≠ some "defs") : (doc.pushNode parent kind).1.DefsFirst := by
  refine h.grows hdoc hparent (Grows.refl.push (.inl rfl) hparent kind) fun heq child hchild hold => ?_
  rw [children_pushNode hparent, if_pos heq.symm] at hchild
  rcases List.mem_append.1 hchild with hmem | hlast
  · exact absurd hmem hold
  · rw [List.mem_singleton.1 hlast, tag?_eq_bind, getElem?_pushNode_new hparent]
    exact hkind

/-- **Definitions that are made when there are none** come in front. -/
theorem prependElement (hdoc : doc.WellFormed)
    (hnone : ∀ child ∈ doc.children root, doc.tag? child ≠ some "defs") (tag : String) :
    (doc.prependElement root tag).1.DefsFirst := by
  intro child hchild
  rw [children_prependElement hdoc.root_lt, if_pos rfl] at hchild
  rw [(Changes.prependElement doc hdoc.root_lt tag).tag?_eq child (hdoc.children_after hchild).2]
  exact hnone child hchild

end DefsFirst

/-- An empty drawing has no definitions. -/
theorem ofSettings_defsFirst (settings : Settings) : (ofSettings settings).DefsFirst := by
  rintro child ⟨⟩

end Document
end Drawing
end Frontispiece
