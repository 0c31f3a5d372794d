import Frontispiece.Proofs.Drawing.Copy
import Frontispiece.Proofs.Drawing.Descendants
import Mathlib.Data.List.Flatten
import Mathlib.Data.List.Nodup
import Mathlib.Data.List.Perm.Subperm

/-!
# Listing, writing and copying a node

Three walks go down from a node.  The list of what is below is made by a loop over a stack, the
written form and the copy by functions that call themselves for each child.  None of them knows how
deep the document is: they end because children come after their parents, and they agree because
no node has two parents.

## What is here

* `Strict.descendants` — the loop over a stack, with a bound on its steps.
* `Strict.render` — the writer over the numbers of nodes, which records the nodes in the order in
  which it begins them.
* `Linked.nodup_descendants` — nothing is below a node twice.
* `shown` — the nodes below a node that are written, that is, those that are not below a text.
* `WellFormed.visit_eq`, `WellFormed.write_eq` — one lemma for each walk.
* `Reachable.traversal` — listing, writing and copying agree in every reachable document.

The loop over a stack is the only walk whose end is in doubt.  It is shown to take as many steps as
there are nodes to list, and that no node is listed twice, which is where the links between nodes
come in: a node with two parents would be listed once for each.  The other two walks are recursions
on the children and end because children come after their parents.

The writer skips what is below a text.  This is what the walks may disagree in, and `shown` says
exactly how.
-/

set_option autoImplicit false

namespace Frontispiece
namespace Drawing

open Markup (Tree escapeText attrChars indentation)

namespace Strict

/-! ## Walks over numbers

The three walks, written as the program has them: a loop with a stack for the list, and recursion on
the children for the written form.  The writer also notes each node when it begins to write it,
which the program does not; this is how the order of writing can be spoken of. -/

/-- The nodes on a stack, of which the first is on top, and those below them behind the nodes that
are listed already.  The top leaves the stack and is listed, and its children are put on it from
the last to the first.  `none` when the steps run out. -/
def visit (doc : Document) : Nat → List NodeId → List NodeId → Option (List NodeId)
  | _, [], listed => some listed
  | 0, _ :: _, _ => none
  | steps + 1, id :: stack, listed => do
    let below ← children doc id
    visit doc steps (below.reverse.foldl (fun stack child => child :: stack) stack) (listed ++ [id])

/-- The nodes below a node by a loop over a stack. -/
def descendants (doc : Document) (steps : Nat) (id : NodeId) : Option (List NodeId) := do
  let below ← children doc id
  visit doc steps (below.reverse.foldl (fun stack child => child :: stack) []) []

end Strict

/-- What is written so far, with the nodes in the order in which they were begun. -/
structure Written where
  chars : List Char
  nodes : List NodeId
  deriving DecidableEq

/-- More characters. -/
def Written.add (out : Written) (chars : List Char) : Written :=
  { out with chars := out.chars ++ chars }

/-- The first characters of a node. -/
def Written.begin (out : Written) (id : NodeId) (chars : List Char) : Written :=
  ⟨out.chars ++ chars, out.nodes ++ [id]⟩

namespace Strict

/-- Whether children are put on lines of their own. -/
def indents (doc : Document) (pretty : Bool) (below : List NodeId) : Option Bool :=
  if pretty then below.allM fun child => Option.isSome <$> tag doc child
  else some false

/-- A node written at a depth behind what is written already. -/
def write (doc : Document) (pretty : Bool) : Nat → Nat → NodeId → Written → Option Written
  | 0, _, _, _ => none
  | fuel + 1, depth, id, out => do
    match ← kind doc id with
    | .text content => some (out.begin id (escapeText content.toList))
    | .element tag attrs =>
      let out := out.begin id ('<' :: tag.toList ++ attrChars attrs)
      let below ← children doc id
      if below.isEmpty then some (out.add ['/', '>'])
      else
        let indent ← indents doc pretty below
        let out ← below.foldlM (fun out child =>
          write doc pretty fuel (depth + 1) child
            (out.add (if indent then indentation (depth + 1) else []))) (out.add ['>'])
        some (out.add ((if indent then indentation depth else []) ++ '<' :: '/' :: tag.toList
          ++ ['>']))

/-- The written form of a document, and the nodes in the order in which they are written. -/
def render (doc : Document) (pretty : Bool) (fuel : Nat) : Option Written :=
  write doc pretty fuel 0 Document.root ⟨[], []⟩

end Strict

theorem Branch.kindsAll_eq : ∀ branches : List Branch, kindsAll branches = branches.flatMap kinds
  | [] => rfl
  | child :: rest => by rw [kindsAll, kindsAll_eq rest, List.flatMap_cons]

namespace Document

variable {doc : Document} {loose : List NodeId} {id : NodeId}

/-! ## The list of what is below

That the loop ends, and within how many steps, is a matter of counting: no node is listed twice,
since it has one parent, and none is listed that does not come after the node at which the walk
starts. -/

/-- With one parent for each node, of two nodes above the same node one is above the other. -/
theorem Linked.above_total (h : doc.Linked loose) {first second other : NodeId}
    (hfirst : Relation.ReflTransGen (fun parent child => child ∈ doc.children parent) first other)
    (hsecond : Relation.ReflTransGen (fun parent child => child ∈ doc.children parent) second
      other) :
    first = second ∨ doc.Below first second ∨ doc.Below second first := by
  have hunique : Relator.RightUnique fun child parent => child ∈ doc.children parent :=
    fun _ _ _ hone htwo => h.parent_unique hone htwo
  rcases Relation.ReflTransGen.total_of_right_unique hunique (Relation.reflTransGen_swap.2 hfirst)
    (Relation.reflTransGen_swap.2 hsecond) with habove | habove
  · rcases Relation.reflTransGen_iff_eq_or_transGen.1 (Relation.reflTransGen_swap.1 habove)
      with heq | hbelow
    · exact .inl heq
    · exact .inr (.inr hbelow)
  · rcases Relation.reflTransGen_iff_eq_or_transGen.1 (Relation.reflTransGen_swap.1 habove)
      with heq | hbelow
    · exact .inl heq.symm
    · exact .inr (.inl hbelow)

/-- A child of a node is not below another child of it. -/
theorem Linked.not_below_sibling (h : doc.Linked loose) (hdoc : doc.WellFormed)
    {first second : NodeId} (hfirst : first ∈ doc.children id) (hsecond : second ∈ doc.children id) :
    ¬doc.Below first second := by
  intro hbelow
  obtain ⟨parent, hparent, hchild⟩ := Relation.TransGen.tail'_iff.1 hbelow
  -- the only parent of the second is the node, which comes before the first
  obtain rfl := h.parent_unique hchild hsecond
  have hafter := (hdoc.children_after hfirst).1
  rcases Relation.reflTransGen_iff_eq_or_transGen.1 hparent with rfl | hdown
  · exact Nat.lt_irrefl _ hafter
  · exact Nat.lt_asymm hafter (hdoc.lt_of_below hdown).1

/-- A node is listed below one child at most. -/
theorem Linked.disjoint_siblings (h : doc.Linked loose) (hdoc : doc.WellFormed)
    {first second : NodeId} (hfirst : first ∈ doc.children id) (hsecond : second ∈ doc.children id)
    (hne : first ≠ second) :
    List.Disjoint (first :: doc.descendants first) (second :: doc.descendants second) := by
  have hreach : ∀ {child other}, child ∈ doc.children id → other ∈ child :: doc.descendants child →
      Relation.ReflTransGen (fun parent child => child ∈ doc.children parent) child other := by
    intro child other hchild hother
    rcases List.mem_cons.1 hother with rfl | hmem
    · exact .refl
    · exact ((hdoc.mem_descendants_iff (hdoc.children_after hchild).2).1 hmem).to_reflTransGen
  intro other hone htwo
  rcases h.above_total (hreach hfirst hone) (hreach hsecond htwo) with heq | hbelow | hbelow
  · exact hne heq
  · exact h.not_below_sibling hdoc hfirst hsecond hbelow
  · exact h.not_below_sibling hdoc hsecond hfirst hbelow

/-- **No node is listed twice**, by induction on the nodes that come after. -/
theorem Linked.nodup_descendants (h : doc.Linked loose) (hdoc : doc.WellFormed) (id : Nat)
    (hid : id < doc.nodes.size) : (id :: doc.descendants id).Nodup := by
  refine List.nodup_cons.2 ⟨fun hmem => ?_, ?_⟩
  · exact Nat.lt_irrefl _ (hdoc.lt_of_below ((hdoc.mem_descendants_iff hid).1 hmem)).1
  · rw [hdoc.descendants_eq hid, List.nodup_flatMap]
    refine ⟨fun child hchild => ?_, (h.nodup id).pairwise_of_forall_ne fun first hfirst second
      hsecond hne => h.disjoint_siblings hdoc hfirst hsecond hne⟩
    exact h.nodup_descendants hdoc child (hdoc.children_after hchild).2
termination_by doc.nodes.size - id
decreasing_by
  have hafter := (hdoc.children_after hchild).1
  omega

/-- Numbers from the node on are enough for it and all nodes below. -/
theorem Linked.length_descendants_lt (h : doc.Linked loose) (hdoc : doc.WellFormed)
    (hid : id < doc.nodes.size) : (doc.descendants id).length < doc.nodes.size := by
  have hsub : id :: doc.descendants id ⊆ List.range doc.nodes.size := by
    intro other hother
    rw [List.mem_range]
    rcases List.mem_cons.1 hother with rfl | hmem
    · exact hid
    · exact (hdoc.lt_of_below ((hdoc.mem_descendants_iff hid).1 hmem)).2
  have hle := (List.subperm_of_subset (h.nodup_descendants hdoc id hid) hsub).length_le
  rwa [List.length_range] at hle

/-- **The loop lists what is on the stack, each node before what is below it**, in as many steps as
there are nodes to list. -/
theorem WellFormed.visit_eq (h : doc.WellFormed) : ∀ (steps : Nat) (stack listed : List NodeId),
    (∀ id ∈ stack, id < doc.nodes.size) →
    (stack.flatMap fun id => id :: doc.descendants id).length ≤ steps →
    Strict.visit doc steps stack listed
      = some (listed ++ stack.flatMap fun id => id :: doc.descendants id)
  | steps, [], listed, _, _ => by
    rw [Strict.visit, List.flatMap_nil, List.append_nil]
  | 0, id :: stack, listed, _, hsteps => absurd hsteps (by simp)
  | steps + 1, id :: stack, listed, hlt, hsteps => by
    have hid := hlt id List.mem_cons_self
    have hnext : ((doc.children id ++ stack).flatMap fun id => id :: doc.descendants id)
        = doc.descendants id ++ stack.flatMap fun id => id :: doc.descendants id := by
      rw [List.flatMap_append, ← h.descendants_eq hid]
    have hpush : (doc.children id).reverse.foldl (fun stack child => child :: stack) stack
        = doc.children id ++ stack := by
      rw [List.foldl_flip_cons_eq_append', List.reverse_reverse]
    have hstack : ∀ other ∈ doc.children id ++ stack, other < doc.nodes.size := by
      intro other hother
      rcases List.mem_append.1 hother with hchild | hrest
      · exact (h.children_after hchild).2
      · exact hlt other (List.mem_cons_of_mem _ hrest)
    have hleft : ((doc.children id ++ stack).flatMap
        fun id => id :: doc.descendants id).length ≤ steps := by
      rw [hnext]
      rw [List.flatMap_cons, List.cons_append, List.length_cons] at hsteps
      exact Nat.le_of_succ_le_succ hsteps
    rw [Strict.visit, Strict.children_eq hid]
    dsimp only [bind, Option.bind]
    rw [hpush, h.visit_eq steps _ _ hstack hleft, hnext, List.flatMap_cons]
    simp only [List.append_assoc, List.cons_append, List.nil_append]

/-- The loop ends with the list of what is below. -/
theorem Linked.strict_descendants_eq (h : doc.Linked loose) (hdoc : doc.WellFormed)
    (hid : id < doc.nodes.size) {steps : Nat} (hsteps : doc.nodes.size ≤ steps) :
    Strict.descendants doc steps id = some (doc.descendants id) := by
  have hlength := h.length_descendants_lt hdoc hid
  rw [Strict.descendants, Strict.children_eq hid]
  dsimp only [bind, Option.bind]
  rw [List.foldl_flip_cons_eq_append', List.reverse_reverse, List.append_nil,
    hdoc.visit_eq steps _ _ (fun child hchild => (hdoc.children_after hchild).2), List.nil_append,
    ← hdoc.descendants_eq hid]
  rw [← hdoc.descendants_eq hid]
  exact Nat.le_of_lt (Nat.lt_of_lt_of_le hlength hsteps)

/-! ## The written nodes

The writer does not go below a text.  So it writes a part of what is listed, in the same order, and
all of it when no text has anything below it. -/

/-- One node or more down from a node through elements: a text is written without what is below
it. -/
def Visible (doc : Document) : NodeId → NodeId → Prop :=
  Relation.TransGen fun parent child => child ∈ doc.children parent ∧ (doc.tag? parent).isSome = true

/-- The nodes below a node that are written, in their order, no deeper than the fuel. -/
def shownWithin (doc : Document) : Nat → NodeId → List NodeId
  | 0, _ => []
  | fuel + 1, id =>
    if (doc.tag? id).isSome then
      (doc.children id).flatMap fun child => child :: doc.shownWithin fuel child
    else []

/-- The nodes below a node that are written, in their order. -/
def shown (doc : Document) (id : NodeId) : List NodeId :=
  doc.shownWithin doc.nodes.size id

/-- Fuel for the nodes from `id` on is enough, and more changes nothing. -/
theorem WellFormed.shownWithin_congr (h : doc.WellFormed) : ∀ m n id : Nat,
    id < doc.nodes.size → doc.nodes.size ≤ id + m → doc.nodes.size ≤ id + n →
    doc.shownWithin m id = doc.shownWithin n id
  | 0, _, id, hid, hm, _ => absurd hid (by omega)
  | _ + 1, 0, id, hid, _, hn => absurd hid (by omega)
  | m + 1, n + 1, id, hid, hm, hn => by
    rw [shownWithin, shownWithin]
    refine if_congr Iff.rfl (List.flatMap_congr fun child hchild => ?_) rfl
    obtain ⟨hafter, hlt⟩ := h.children_after hchild
    rw [h.shownWithin_congr m n child hlt (by omega) (by omega)]

/-- What is written of an element is its children, each followed by what is written below it. -/
theorem WellFormed.shown_element (h : doc.WellFormed) {tag : String} {attrs : Fields String}
    (hkind : doc.kind? id = some (.element tag attrs)) :
    doc.shown id = (doc.children id).flatMap fun child => child :: doc.shown child := by
  have hid := lt_of_kind? hkind
  have hone : doc.shown id = doc.shownWithin (doc.nodes.size + 1) id :=
    h.shownWithin_congr _ _ id hid (by omega) (by omega)
  rw [hone, shownWithin, tag?, hkind]
  rfl

/-- Nothing is written below a text. -/
theorem WellFormed.shown_text (h : doc.WellFormed) {content : String}
    (hkind : doc.kind? id = some (.text content)) : doc.shown id = [] := by
  have hid := lt_of_kind? hkind
  have hone : doc.shown id = doc.shownWithin (doc.nodes.size + 1) id :=
    h.shownWithin_congr _ _ id hid (by omega) (by omega)
  rw [hone, shownWithin, tag?, hkind]
  rfl

/-- **What is written comes in the order of the list of what is below.** -/
theorem WellFormed.shown_sublist (h : doc.WellFormed) (id : Nat) (hid : id < doc.nodes.size) :
    (doc.shown id).Sublist (doc.descendants id) := by
  obtain ⟨kind, hkind⟩ := exists_kind? hid
  cases kind with
  | text content =>
    rw [h.shown_text hkind]
    exact List.nil_sublist _
  | element tag attrs =>
    rw [h.shown_element hkind, h.descendants_eq hid]
    exact .flatMap_right _ fun child hchild =>
      (h.shown_sublist child (h.children_after hchild).2).cons_cons child
termination_by doc.nodes.size - id
decreasing_by
  have hafter := (h.children_after hchild).1
  omega

/-- When texts have nothing below them, everything is written. -/
theorem WellFormed.shown_eq (h : doc.WellFormed) (hbare : doc.TextsBare) (id : Nat)
    (hid : id < doc.nodes.size) : doc.shown id = doc.descendants id := by
  obtain ⟨kind, hkind⟩ := exists_kind? hid
  rw [h.descendants_eq hid]
  cases kind with
  | text content => rw [h.shown_text hkind, hbare id content hkind, List.flatMap_nil]
  | element tag attrs =>
    rw [h.shown_element hkind]
    refine List.flatMap_congr fun child hchild => ?_
    rw [h.shown_eq hbare child (h.children_after hchild).2]
termination_by doc.nodes.size - id
decreasing_by
  have hafter := (h.children_after hchild).1
  omega

theorem WellFormed.mem_shown (h : doc.WellFormed) {other : NodeId} (hid : id < doc.nodes.size) :
    other ∈ doc.shown id ↔ (doc.tag? id).isSome = true ∧
      ∃ child ∈ doc.children id, other = child ∨ other ∈ doc.shown child := by
  obtain ⟨kind, hkind⟩ := exists_kind? hid
  cases kind with
  | text content => simp [h.shown_text hkind, tag?, hkind]
  | element tag attrs => simp [h.shown_element hkind, tag?, hkind, List.mem_flatMap]

theorem WellFormed.visible_of_mem (h : doc.WellFormed) (id : Nat) (hid : id < doc.nodes.size)
    {other : NodeId} (hmem : other ∈ doc.shown id) : doc.Visible id other := by
  obtain ⟨htag, child, hchild, heq | hbelow⟩ := (h.mem_shown hid).1 hmem
  · rw [heq]
    exact .single ⟨hchild, htag⟩
  · obtain ⟨hafter, hlt⟩ := h.children_after hchild
    exact .head ⟨hchild, htag⟩ (h.visible_of_mem child hlt hbelow)
termination_by doc.nodes.size - id

/-- **Exactly the nodes that are not below a text are written.** -/
theorem WellFormed.mem_shown_iff (h : doc.WellFormed) (hid : id < doc.nodes.size)
    {other : NodeId} : other ∈ doc.shown id ↔ doc.Visible id other := by
  refine ⟨h.visible_of_mem id hid, fun hvisible => ?_⟩
  induction hvisible using Relation.TransGen.head_induction_on with
  | single hstep => exact (h.mem_shown hid).2 ⟨hstep.2, _, hstep.1, .inl rfl⟩
  | head hstep _ ih =>
    exact (h.mem_shown hid).2 ⟨hstep.2, _, hstep.1, .inr (ih (h.children_after hstep.1).2)⟩

/-! ## The writer

The characters are those of the tree of the node, and the nodes are those that are shown.  Both are
carried through the recursion together. -/

/-- Children are put on lines of their own when their trees are elements. -/
theorem WellFormed.indents_eq (h : doc.WellFormed) (pretty : Bool) (ids : List NodeId)
    (hlt : ∀ id ∈ ids, id < doc.nodes.size) :
    Strict.indents doc pretty ids = some (pretty && (ids.map doc.tree).all Tree.isElement) := by
  have hall : ids.allM (fun child => Option.isSome <$> Strict.tag doc child)
      = some ((ids.map doc.tree).all Tree.isElement) := by
    induction ids with
    | nil => rfl
    | cons id rest ih =>
      have hid := hlt id List.mem_cons_self
      have hrest := ih fun other hother => hlt other (List.mem_cons_of_mem _ hother)
      obtain ⟨kind, hkind⟩ := exists_kind? hid
      rw [List.allM, Strict.tag_eq hid]
      cases kind with
      | text content => simp [tag?, hkind, h.tree_text hkind, Tree.isElement]
      | element tag attrs => simpa [tag?, hkind, h.tree_element hkind, Tree.isElement] using hrest
  cases pretty with
  | false => rfl
  | true => exact hall

/-- A loop that writes one piece after the other. -/
theorem foldlM_written {step : Written → NodeId → Option Written} (piece : NodeId → List Char)
    (nodes : NodeId → List NodeId) : ∀ (ids : List NodeId) (out : Written),
    (∀ id ∈ ids, ∀ out, step out id = some ⟨out.chars ++ piece id, out.nodes ++ nodes id⟩) →
    ids.foldlM step out = some ⟨out.chars ++ ids.flatMap piece, out.nodes ++ ids.flatMap nodes⟩
  | [], out, _ => by simp
  | id :: rest, out, h => by
    rw [List.foldlM_cons, h id List.mem_cons_self]
    dsimp only [bind, Option.bind]
    rw [foldlM_written piece nodes rest _ fun other hother => h other (List.mem_cons_of_mem _ hother)]
    simp

/-- The written form of children is made of theirs. -/
theorem childChars_map (pretty indent : Bool) (depth : Nat) (tree : NodeId → Tree) :
    ∀ ids : List NodeId, Tree.childChars pretty indent depth (ids.map tree)
      = ids.flatMap fun id =>
        (if indent then indentation depth else []) ++ (tree id).chars pretty depth
  | [] => rfl
  | id :: rest => by
    rw [List.map_cons, Tree.childChars, childChars_map pretty indent depth tree rest,
      List.flatMap_cons]

/-- **The writer ends with the markup of the node**, and with the nodes that it wrote. -/
theorem WellFormed.write_eq (h : doc.WellFormed) (pretty : Bool) : ∀ (fuel depth id : Nat)
    (out : Written), id < doc.nodes.size → doc.nodes.size ≤ id + fuel →
    Strict.write doc pretty fuel depth id out
      = some ⟨out.chars ++ (doc.tree id).chars pretty depth, out.nodes ++ id :: doc.shown id⟩
  | 0, _, id, _, hid, hfuel => absurd hid (Nat.not_lt.2 hfuel)
  | fuel + 1, depth, id, out, hid, hfuel => by
    obtain ⟨kind, hkind⟩ := exists_kind? hid
    have hread : Strict.kind doc id = some kind := hkind
    rw [Strict.write, hread]
    dsimp only [bind, Option.bind]
    cases kind with
    | text content =>
      rw [h.tree_text hkind, h.shown_text hkind]
      rfl
    | element tag attrs =>
      have hindents := h.indents_eq pretty (doc.children id) fun child hchild =>
        (h.children_after hchild).2
      -- the children one after the other, each behind what has been written so far
      have hfold : ∀ (indent : Bool) (out : Written),
          (doc.children id).foldlM (fun out child => Strict.write doc pretty fuel (depth + 1) child
              (out.add (if indent then indentation (depth + 1) else []))) out
            = some ⟨out.chars ++ Tree.childChars pretty indent (depth + 1)
                ((doc.children id).map doc.tree),
              out.nodes ++ (doc.children id).flatMap fun child => child :: doc.shown child⟩ := by
        intro indent out
        rw [childChars_map]
        refine foldlM_written _ _ _ out fun child hchild out => ?_
        -- children come after their parent, so the fuel that is left is enough for each of them
        obtain ⟨hafter, hlt⟩ := h.children_after hchild
        rw [h.write_eq pretty fuel (depth + 1) child _ hlt (by omega), Written.add,
          List.append_assoc]
      rw [Strict.children_eq hid, h.tree_element hkind, h.shown_element hkind, Tree.chars]
      dsimp only
      rw [hindents]
      dsimp only
      cases hbelow : doc.children id with
      | nil => simp [Written.add, Written.begin]
      | cons first rest =>
        rw [← hbelow, hfold]
        simp [Written.add, Written.begin, hbelow]

/-! ## Copies

A copy makes its nodes in the order of the list, again with everything below texts.  It is found at
the first number that was free. -/

theorem holdsAll_map {first : NodeId} {branchOf : NodeId → Branch} : ∀ {ids : List NodeId},
    (∀ id ∈ ids, doc.Holds first id (branchOf id)) → doc.HoldsAll first ids (ids.map branchOf)
  | [], _ => trivial
  | id :: _, h => ⟨h id List.mem_cons_self,
    holdsAll_map fun other hother => h other (List.mem_cons_of_mem _ hother)⟩

/-- The branch of a node is found at the node. -/
theorem WellFormed.holds_branch (h : doc.WellFormed) (id first : Nat) (hid : id < doc.nodes.size)
    (hfirst : first ≤ id) : doc.Holds first id (doc.branch id) := by
  obtain ⟨kind, hkind⟩ := exists_kind? hid
  rw [h.branch_eq hid, hkind]
  refine ⟨hfirst, hkind, holdsAll_map fun child hchild => ?_⟩
  obtain ⟨hafter, hlt⟩ := h.children_after hchild
  exact h.holds_branch child (id + 1) hlt hafter
termination_by doc.nodes.size - id

/-- The nodes of a branch are its node and what is below it, in the order of the list. -/
theorem WellFormed.kinds_branch (h : doc.WellFormed) (id : Nat) (hid : id < doc.nodes.size) :
    (doc.branch id).kinds.map some = (id :: doc.descendants id).map doc.kind? := by
  obtain ⟨kind, hkind⟩ := exists_kind? hid
  rw [h.branch_eq hid, hkind, Branch.kinds, Branch.kindsAll_eq, h.descendants_eq hid, List.map_cons,
    List.map_cons, hkind, List.flatMap_map, List.map_flatMap, List.map_flatMap]
  congr 1
  refine List.flatMap_congr fun child hchild => ?_
  exact h.kinds_branch child (h.children_after hchild).2
termination_by doc.nodes.size - id
decreasing_by
  have hafter := (h.children_after hchild).1
  omega

/-- What a copy of a node of `source` below `parent` made of a document.  The copy is the first of
the new nodes. -/
structure Copied (source : Document) (id : NodeId) (doc : Document) (parent : NodeId)
    (now : Document) : Prop where
  /-- There is one new node for the node and for each below it, in the order of the list. -/
  kinds : now.kinds.map some
    = doc.kinds.map some ++ (id :: source.descendants id).map source.kind?
  /-- The copy is the same branch. -/
  branch : now.branch doc.nodes.size = source.branch id
  /-- It is written like the node. -/
  render : ∀ pretty, (now.tree doc.nodes.size).render pretty = (source.tree id).render pretty
  /-- It became the last child of its parent. -/
  placed : now.parent? doc.nodes.size = some parent ∧
    now.children parent = doc.children parent ++ [doc.nodes.size]
  /-- Nodes that were there are what they were. -/
  kept : ∀ old < doc.nodes.size, now.kind? old = doc.kind? old ∧ now.parent? old = doc.parent? old ∧
    (old ≠ parent → now.children old = doc.children old)

/-- **A node of one document is copied into another**, and nothing else happens. -/
theorem Reachable.copied {source : Document} {parent : NodeId} (h : doc.Reachable)
    (hsource : source.Reachable) (hid : id < source.nodes.size) (hparent : parent < doc.nodes.size) :
    Copied source id doc parent (doc.graft parent (source.branch id)).1 := by
  have hwell := hsource.wellFormed
  have hnow := (h.graft_branch hsource hparent id).wellFormed
  have hgrows := graft_grows hparent (source.branch id)
  have hbranch : (doc.graft parent (source.branch id)).1.branch doc.nodes.size = source.branch id :=
    hnow.branch_of_holds (graft_holds (source.branch id) hparent)
  have hchildren := children_graft hparent (source.branch id)
  obtain ⟨loose, hhistory⟩ := h.history
  refine ⟨?_, hbranch, fun pretty => ?_, ⟨?_, hchildren⟩, fun old hold => ?_⟩
  · rw [kinds_graft, List.map_append, hwell.kinds_branch id hid]
  · rw [tree, hbranch, ← tree]
  · have hlinked := hhistory.linked.grows hgrows
    refine ((hlinked.mem_children_iff doc.nodes.size parent).1 ?_).1
    rw [hchildren]
    exact List.mem_append_right _ List.mem_cons_self
  · exact ⟨hgrows.kind?_eq hold, hgrows.parent?_eq hold,
      fun hne => children_of_getElem? ((Changes.grows hparent hgrows).1.same old hold hne)⟩

/-! ## The walks together

The three orders are one order: that in which a node comes before what is below it, and children in
the order of their list. -/

/-- **Listing, writing and copying agree**, for every node of every document that operations make.
* The loop over a stack ends after at most as many steps as the document has nodes.  It lists
  exactly the nodes below the node, and neither these nor the node itself twice.
* The writer ends with the markup of the node, and for the root with the written form of the
  document.  It writes the node first, and then nodes below it in the order of the list: all that
  are not below a text, which is all of them when texts have nothing below them.
* The nodes below a text have no place in the order of writing.  Operations may put nodes there, but
  a text is written as its content and nothing else, so the markup neither has these nodes nor says
  where they would come.  The list has them where they hang in the document.
* A copy below a node of another document ends as well, and does what `Copied` says. -/
theorem Reachable.traversal (h : doc.Reachable) (hid : id < doc.nodes.size) :
    (∀ steps, doc.nodes.size ≤ steps →
      Strict.descendants doc steps id = some (doc.descendants id)) ∧
    (∀ other, other ∈ doc.descendants id ↔ doc.Below id other) ∧
    (id :: doc.descendants id).Nodup ∧
    (∀ pretty depth fuel, doc.nodes.size ≤ fuel →
      Strict.write doc pretty fuel depth id ⟨[], []⟩
        = some ⟨(doc.tree id).chars pretty depth, id :: doc.shown id⟩) ∧
    (∀ pretty fuel, doc.nodes.size ≤ fuel →
      Strict.render doc pretty fuel = some ⟨(doc.render pretty).toList, root :: doc.shown root⟩) ∧
    (doc.shown id).Sublist (doc.descendants id) ∧
    (∀ other, other ∈ doc.shown id ↔ doc.Visible id other) ∧
    (doc.TextsBare → doc.shown id = doc.descendants id) ∧
    ∀ (other : Document) (parent : NodeId), other.Reachable → parent < other.nodes.size →
      ∀ fuel, doc.nodes.size ≤ fuel → ∃ now,
        Strict.graft doc fuel other parent id = some (now, other.nodes.size) ∧ now.Reachable ∧
        Copied doc id other parent now := by
  have hwell := h.wellFormed
  obtain ⟨loose, hhistory⟩ := h.history
  have hlinked := hhistory.linked
  refine ⟨fun steps => hlinked.strict_descendants_eq hwell hid,
    fun other => hwell.mem_descendants_iff hid, hlinked.nodup_descendants hwell id hid,
    fun pretty depth fuel hfuel => ?_, fun pretty fuel hfuel => ?_, hwell.shown_sublist id hid,
    fun other => hwell.mem_shown_iff hid, fun hbare => ?_,
    fun other parent hother hparent fuel hfuel => ?_⟩
  · exact hwell.write_eq pretty fuel depth id _ hid (by omega)
  · rw [Strict.render, hwell.write_eq pretty fuel 0 root _ hwell.root_lt (by omega), render,
      Tree.render_eq, String.toList_ofList]
    rfl
  · exact hwell.shown_eq hbare id hid
  · refine ⟨_, ?_, hother.graft_branch h hparent id, hother.copied h hid hparent⟩
    have hholds := hwell.holds_branch id 0 hid (Nat.zero_le id)
    have hsecond : ∀ branch : Branch, (other.graft parent branch).2 = other.nodes.size :=
      fun ⟨_, _⟩ => rfl
    rw [Strict.graft_of_holds hholds (by omega) hparent]
    exact congrArg some (Prod.ext rfl (hsecond _))

/-- A group that was cut off.  It holds a text, below which an element was put, and a circle. -/
def cutOff : Document :=
  let (doc, group) := (withRoot "svg").appendElement root "g"
  let (doc, words) := doc.appendText group "a<b"
  let (doc, _) := doc.appendElement words "rect"
  let (doc, _) := doc.appendElement group "circle"
  doc.detach group

/-- The three walks from the group that was cut off, which is copied below its own old root. -/
theorem cutOff_traversal : cutOff.Reachable ∧ 1 < cutOff.nodes.size ∧
    cutOff.descendants 1 = [2, 3, 4] ∧ cutOff.shown 1 = [2, 4] ∧
    Strict.descendants cutOff 5 1 = some [2, 3, 4] ∧
    Strict.write cutOff false 5 0 1 ⟨[], []⟩
      = some ⟨"<g>a&lt;b<circle/></g>".toList, [1, 2, 4]⟩ ∧
    ∃ now, Strict.graft cutOff 5 cutOff root 1 = some (now, 5) ∧ now.Reachable ∧
      Copied cutOff 1 cutOff root now := by
  have hgroup := @Reachable.appendElement _ (.withRoot "svg") root (by decide) "g"
  have hwords := @Reachable.appendText _ hgroup 1 (by decide) "a<b"
  have hrect := @Reachable.appendElement _ hwords 2 (by decide) "rect"
  have hcircle := @Reachable.appendElement _ hrect 1 (by decide) "circle"
  have hreachable : cutOff.Reachable := Reachable.detach hcircle 1
  have hid : 1 < cutOff.nodes.size := by decide
  have hbelow : cutOff.descendants 1 = [2, 3, 4] := by decide
  have hshown : cutOff.shown 1 = [2, 4] := by decide
  have htree : cutOff.tree 1 = .element "g" [] [.text "a<b", .element "circle" [] []] := by cbv
  obtain ⟨hlist, -, -, hwrite, -, -, -, -, hcopy⟩ := hreachable.traversal hid
  refine ⟨hreachable, hid, hbelow, hshown, ?_, ?_, ?_⟩
  · rw [hlist 5 (by decide), hbelow]
  · rw [hwrite false 0 5 (by decide), hshown, htree]
    with_unfolding_all rfl
  · exact hcopy cutOff root hreachable (by decide) 5 (by decide)

end Document
end Drawing
end Frontispiece
