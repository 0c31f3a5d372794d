import Frontispiece.Proofs.Drawing.Links

/-!
# What drawing on a node leaves alone

Drawing on a node changes that node, the nodes that it makes itself, and the definitions of the
drawing, which hang at the root.  `Drawn` lists the operations that this takes.  From the list it
follows, by induction, that all other nodes stay as they are, and that the children of the root keep
their order and everything below them.

## What is here

* `IsDefs`, `Within` — the definitions of a drawing, and the nodes that drawing on a node may
  change.
* `Drawn` — a document that was drawn from another by operations on such nodes.
* `Framed` — what drawing leaves alone, with a lemma for each operation; `Drawn.framed`.
* `Framed.branch_eq`, `Drawn.branches_prefix` — so what hangs at the root is not painted over.

The difficulty is with definitions.  A call on any node may make them, which puts a new child in
front of all children of the root, or draw into them.  So what drawing may touch is not only what is
below its target, and the list of children of the root is not a prefix of the later one; it is one
only when definitions are left out on both sides (`shapes`).
-/

set_option autoImplicit false

namespace Frontispiece
namespace Drawing

/-- The tag of an element. -/
def NodeKind.tag? : NodeKind → Option String
  | .element tag _ => some tag
  | .text _ => none

namespace Document

variable {doc now next : Document} {target id : NodeId} {keeps : Prop}

/-- A node is an element for definitions at the root. -/
def IsDefs (doc : Document) (id : NodeId) : Prop :=
  id ∈ doc.children root ∧ doc.tag? id = some "defs"

/-- The nodes that drawing on a target may change: the target, the definitions, and new nodes. -/
def Within (doc : Document) (target id : NodeId) : Prop :=
  id = target ∨ doc.nodes.size ≤ id ∨ doc.IsDefs id

/-- The documents that drawing on a target may make.  With `keeps` the root is not cleared. -/
inductive Drawn (doc : Document) (target : NodeId) (keeps : Prop) : Document → Prop where
  | refl : Drawn doc target keeps doc
  | setAttr {now : Document} (h : Drawn doc target keeps now) {id : NodeId}
    (hid : doc.Within target id) (name value : String) :
    Drawn doc target keeps (now.setAttr id name value)
  | removeAttr {now : Document} (h : Drawn doc target keeps now) {id : NodeId}
    (hid : doc.Within target id) (name : String) :
    Drawn doc target keeps (now.removeAttr id name)
  | appendElement {now : Document} (h : Drawn doc target keeps now) {id : NodeId}
    (hid : doc.Within target id) (hlt : id < now.nodes.size) (tag : String) :
    Drawn doc target keeps (now.appendElement id tag).1
  | appendText {now : Document} (h : Drawn doc target keeps now) {id : NodeId}
    (hid : doc.Within target id) (hlt : id < now.nodes.size) (content : String) :
    Drawn doc target keeps (now.appendText id content).1
  | graft {now : Document} (h : Drawn doc target keeps now) {id : NodeId}
    (hid : doc.Within target id) (hlt : id < now.nodes.size) {branch : Branch}
    (hbranch : branch.Distinct) : Drawn doc target keeps (now.graft id branch).1
  | clear {now : Document} (h : Drawn doc target keeps now) {id : NodeId}
    (hid : doc.Within target id) (hroot : keeps → id ≠ root) : Drawn doc target keeps (now.clear id)
  | defs {now : Document} (h : Drawn doc target keeps now) (hlt : root < now.nodes.size)
    (hnone : ∀ child ∈ now.children root, now.tag? child ≠ some "defs") :
    Drawn doc target keeps (now.prependElement root "defs").1

/-- Drawing is done by operations. -/
theorem Drawn.reachable (h : Drawn doc target keeps now) (hdoc : doc.Reachable) :
    now.Reachable := by
  induction h with
  | refl => exact hdoc
  | setAttr h hid name value ih => exact ih.setAttr _ name value
  | removeAttr h hid name ih => exact ih.removeAttr _ name
  | appendElement h hid hlt tag ih => exact ih.appendElement hlt tag
  | appendText h hid hlt content ih => exact ih.appendText hlt content
  | graft h hid hlt hbranch ih => exact ih.graft hlt hbranch
  | clear h hid hroot ih => exact ih.clear _
  | defs h hlt hnone ih => exact ih.prependElement hlt "defs"

/-! ## Operations on one node

Besides new nodes, each operation that draws changes one of the old nodes, and never its tag.
`Changes` says this in one way for all of them. -/

theorem children_of_getElem? (h : now.nodes[id]? = doc.nodes[id]?) :
    now.children id = doc.children id := by
  rw [children, children, h]

/-- The tag of a node is read from the node. -/
theorem tag?_eq_bind (doc : Document) (id : NodeId) :
    doc.tag? id = doc.nodes[id]?.bind fun node => node.kind.tag? := by
  rw [tag?, kind?]
  cases doc.nodes[id]? with
  | none => rfl
  | some node =>
    rw [Option.map_some, Option.bind_some]
    cases node.kind with
    | element tag attrs => rfl
    | text content => rfl

theorem tag?_of_getElem? (h : now.nodes[id]? = doc.nodes[id]?) : now.tag? id = doc.tag? id := by
  rw [tag?_eq_bind, tag?_eq_bind, h]

/-- A change that leaves the tag of a node leaves all tags. -/
theorem tag?_modifyNode (doc : Document) (id other : NodeId) {f : Node → Node}
    (hf : ∀ node, (f node).kind.tag? = node.kind.tag?) :
    (doc.modifyNode id f).tag? other = doc.tag? other := by
  rw [tag?_eq_bind, getElem?_modifyNode, tag?_eq_bind]
  split
  · cases doc.nodes[other]? with
    | none => rfl
    | some node => exact hf node
  · rfl

@[simp] theorem tag?_modifyAttrs (doc : Document) (id other : NodeId)
    (f : Fields String → Fields String) : (doc.modifyAttrs id f).tag? other = doc.tag? other := by
  refine tag?_modifyNode doc id other fun node => ?_
  cases hkind : node.kind with
  | element tag attrs => rfl
  | text content => rw [hkind]

@[simp] theorem tag?_setAttr (doc : Document) (id other : NodeId) (name value : String) :
    (doc.setAttr id name value).tag? other = doc.tag? other := tag?_modifyAttrs doc id other _

/-- An element has the attributes that it was given. -/
theorem attrs_modifyAttrs_self (hid : (doc.tag? id).isSome = true)
    (f : Fields String → Fields String) : (doc.modifyAttrs id f).attrs id = f (doc.attrs id) := by
  obtain ⟨tag, htag⟩ := Option.isSome_iff_exists.1 hid
  rw [tag?_eq_bind] at htag
  obtain ⟨node, hnode, hkind⟩ := Option.bind_eq_some_iff.1 htag
  rw [attrs, attrs, kind?, kind?, modifyAttrs, getElem?_modifyNode, if_pos rfl, hnode,
    Option.map_some, Option.map_some, Option.map_some]
  cases hn : node.kind with
  | element tag attrs => rfl
  | text content => simp [hn, NodeKind.tag?] at hkind

theorem attr?_setAttr_self (hid : (doc.tag? id).isSome = true) (name value : String) :
    (doc.setAttr id name value).attr? id name = some value := by
  rw [attr?, setAttr, attrs_modifyAttrs_self hid, Fields.get?_insert_self]

/-- One of the old nodes may have changed, but not its tag. -/
structure Changes (doc : Document) (id : NodeId) (now : Document) : Prop where
  size_le : doc.nodes.size ≤ now.nodes.size
  same : ∀ other < doc.nodes.size, other ≠ id → now.nodes[other]? = doc.nodes[other]?
  tag?_eq : ∀ other < doc.nodes.size, now.tag? other = doc.tag? other

theorem Changes.modifyNode (doc : Document) (id : NodeId) {f : Node → Node}
    (hf : ∀ node, (f node).kind.tag? = node.kind.tag?) :
    Changes doc id (doc.modifyNode id f) where
  size_le := Nat.le_of_eq (size_modifyNode doc id f).symm
  same other _ hne := by rw [getElem?_modifyNode, if_neg hne.symm]
  tag?_eq other _ := tag?_modifyNode doc id other hf

theorem Changes.modifyAttrs (doc : Document) (id : NodeId) (f : Fields String → Fields String) :
    Changes doc id (doc.modifyAttrs id f) := by
  refine .modifyNode doc id fun node => ?_
  cases hkind : node.kind with
  | element tag attrs => rfl
  | text content => rw [hkind]

theorem Changes.trans (h : Changes doc id now) (hnext : Changes now id next) :
    Changes doc id next where
  size_le := Nat.le_trans h.size_le hnext.size_le
  same other hlt hne := by
    rw [hnext.same other (Nat.lt_of_lt_of_le hlt h.size_le) hne, h.same other hlt hne]
  tag?_eq other hlt := by
    rw [hnext.tag?_eq other (Nat.lt_of_lt_of_le hlt h.size_le), h.tag?_eq other hlt]

/-- A new node changes its parent, and no other node that was there. -/
theorem Changes.pushNode (doc : Document) {parent : NodeId} (hparent : parent < doc.nodes.size)
    (kind : NodeKind) : Changes doc parent (doc.pushNode parent kind).1 where
  size_le := by
    rw [size_pushNode]
    exact Nat.le_succ _
  same other hlt hne := getElem?_pushNode doc kind hne hlt
  tag?_eq other hlt := by
    by_cases heq : other = parent
    · subst heq
      have hnode := getElem?_pushNode_parent kind (Array.getElem?_eq_getElem hparent)
      rw [tag?_eq_bind, hnode, tag?_eq_bind, Array.getElem?_eq_getElem hparent]
      rfl
    · exact tag?_of_getElem? (getElem?_pushNode doc kind heq hlt)

theorem Changes.prependElement (doc : Document) {parent : NodeId}
    (hparent : parent < doc.nodes.size) (tag : String) :
    Changes doc parent (doc.prependElement parent tag).1 :=
  (Changes.pushNode doc hparent (.element tag [])).trans (.modifyNode _ parent fun _ => rfl)

/-- A copy changes its parent only, and gives it new children. -/
theorem Changes.grows {parent : NodeId} (hparent : parent < doc.nodes.size)
    (h : Grows doc parent now) : Changes doc parent now ∧
      ∃ new, now.children parent = doc.children parent ++ new ∧
        ∀ child ∈ new, doc.nodes.size ≤ child := by
  induction h with
  | refl => exact ⟨⟨Nat.le_refl _, fun _ _ _ => rfl, fun _ _ => rfl⟩, [], by simp⟩
  | @push now h above hplace habove kind ih =>
    obtain ⟨ih, new, hchildren, hnew⟩ := ih
    have hpush := Changes.pushNode now habove kind
    refine ⟨⟨Nat.le_trans ih.size_le hpush.size_le, fun other hlt hne => ?_, fun other hlt => ?_⟩, ?_⟩
    · have hplaced : other ≠ above := by
        rcases hplace with rfl | hge
        · exact hne
        · exact Nat.ne_of_lt (Nat.lt_of_lt_of_le hlt hge)
      rw [hpush.same other (Nat.lt_of_lt_of_le hlt ih.size_le) hplaced, ih.same other hlt hne]
    · rw [hpush.tag?_eq other (Nat.lt_of_lt_of_le hlt ih.size_le), ih.tag?_eq other hlt]
    · rw [children_pushNode habove]
      split
      · refine ⟨new ++ [now.nodes.size], by rw [hchildren, List.append_assoc], fun child hchild => ?_⟩
        rcases List.mem_append.1 hchild with hold | hlast
        · exact hnew child hold
        · rw [List.mem_singleton.1 hlast]
          exact ih.size_le
      · exact ⟨new, hchildren, hnew⟩

/-! ## What drawing leaves alone

The invariant has one clause for the old nodes in general and one for each node that drawing may
touch.  The children of the root need a clause of their own, since definitions can come in front of
them at any time. -/

/-- What is as it was in a document that something was drawn on. -/
structure Framed (doc : Document) (target : NodeId) (keeps : Prop) (now : Document) : Prop where
  size_le : doc.nodes.size ≤ now.nodes.size
  /-- Old nodes are the same, but for the target, the root and the definitions. -/
  same : ∀ id < doc.nodes.size, id ≠ root → ¬doc.Within target id →
    now.nodes[id]? = doc.nodes[id]?
  /-- Old nodes keep their tags. -/
  tag?_eq : ∀ id < doc.nodes.size, now.tag? id = doc.tag? id
  /-- The children of the root are old children or new nodes. -/
  root_children : ∀ child ∈ now.children root, child ∈ doc.children root ∨ doc.nodes.size ≤ child
  /-- The root is the same when it is not the target, but for definitions in front that it did not
  have. -/
  root_same : target ≠ root → now.nodes[root]? = doc.nodes[root]? ∨
    (∀ child ∈ doc.children root, doc.tag? child ≠ some "defs") ∧
      ∃ node new, doc.nodes[root]? = some node ∧ doc.nodes.size ≤ new ∧
        now.tag? new = some "defs" ∧
        now.nodes[root]? = some { node with children := new :: node.children }
  /-- The root keeps its children in one piece unless it is cleared. -/
  kept : keeps → ∃ front back, now.children root = front ++ doc.children root ++ back ∧
    ∀ child ∈ front, now.tag? child = some "defs"

/-- The root is none of the nodes that drawing on another may change. -/
theorem WellFormed.root_not_within (hdoc : doc.WellFormed) (htarget : target ≠ Document.root) :
    ¬doc.Within target Document.root := by
  rintro (heq | hnew | ⟨hchild, -⟩)
  · exact htarget heq.symm
  · exact absurd hdoc.root_lt (Nat.not_lt.2 hnew)
  · exact absurd (hdoc.children_after hchild).1 (Nat.lt_irrefl _)

theorem Framed.refl (doc : Document) (target : NodeId) (keeps : Prop) :
    Framed doc target keeps doc where
  size_le := Nat.le_refl _
  same _ _ _ _ := rfl
  tag?_eq _ _ := rfl
  root_children _ hchild := .inl hchild
  root_same _ := .inl rfl
  kept _ := ⟨[], [], by simp, by simp⟩

/-- A new element for definitions is known by its tag. -/
theorem Changes.tag?_front (h : Changes now id next) {child : NodeId}
    (hchild : now.tag? child = some "defs") : next.tag? child = some "defs" :=
  (h.tag?_eq child (lt_of_tag? hchild)).trans hchild

/-- **A change of a node that drawing may change leaves the others alone.**  The node loses all its
children, or gets new ones behind those that it has. -/
theorem Framed.change (hdoc : doc.WellFormed) (h : Framed doc target keeps now)
    (hid : doc.Within target id) (hchange : Changes now id next)
    (hchildren : (∃ new, next.children id = now.children id ++ new ∧
        ∀ child ∈ new, doc.nodes.size ≤ child) ∨
      next.children id = [] ∧ (keeps → id ≠ root)) : Framed doc target keeps next := by
  have hroot : root < now.nodes.size := Nat.lt_of_lt_of_le hdoc.root_lt h.size_le
  have hother : id ≠ root → next.nodes[root]? = now.nodes[root]? := fun hne =>
    hchange.same root hroot hne.symm
  refine ⟨Nat.le_trans h.size_le hchange.size_le, fun other hlt hne hout => ?_,
    fun other hlt => ?_, fun child hchild => ?_, fun htarget => ?_, fun hkeeps => ?_⟩
  -- a node outside of the target is another one than the node that changes
  · have hplaced : other ≠ id := by
      rintro rfl
      exact hout hid
    rw [hchange.same other (Nat.lt_of_lt_of_le hlt h.size_le) hplaced, h.same other hlt hne hout]
  · rw [hchange.tag?_eq other (Nat.lt_of_lt_of_le hlt h.size_le), h.tag?_eq other hlt]
  -- the root gets new children behind the old ones, or loses all of them
  · by_cases heq : id = root
    · subst heq
      rcases hchildren with ⟨new, hnext, hnew⟩ | ⟨hnext, -⟩
      · rw [hnext] at hchild
        rcases List.mem_append.1 hchild with hold | hadded
        · exact h.root_children child hold
        · exact .inr (hnew child hadded)
      · rw [hnext] at hchild
        cases hchild
    · rw [children_of_getElem? (hother heq)] at hchild
      exact h.root_children child hchild
  · have hne : id ≠ root := by
      rintro rfl
      exact hdoc.root_not_within htarget hid
    rw [hother hne]
    rcases h.root_same htarget with hsame | ⟨hnone, node, new, hnode, hnew, htag, hnow⟩
    · exact .inl hsame
    · exact .inr ⟨hnone, node, new, hnode, hnew, hchange.tag?_front htag, hnow⟩
  · obtain ⟨front, back, hnow, hfront⟩ := h.kept hkeeps
    have hfront : ∀ child ∈ front, next.tag? child = some "defs" := fun child hchild =>
      hchange.tag?_front (hfront child hchild)
    by_cases heq : id = root
    · subst heq
      rcases hchildren with ⟨new, hnext, -⟩ | ⟨-, hcleared⟩
      · exact ⟨front, back ++ new, by rw [hnext, hnow, List.append_assoc], hfront⟩
      · exact absurd rfl (hcleared hkeeps)
    · exact ⟨front, back, by rw [children_of_getElem? (hother heq), hnow], hfront⟩

theorem Framed.modifyAttrs (hdoc : doc.WellFormed) (h : Framed doc target keeps now)
    (hid : doc.Within target id) (f : Fields String → Fields String) :
    Framed doc target keeps (now.modifyAttrs id f) := by
  refine h.change hdoc hid (.modifyAttrs now id f) (.inl ⟨[], ?_, by simp⟩)
  rw [List.append_nil, children_modifyAttrs]

theorem Framed.grows (hdoc : doc.WellFormed) (h : Framed doc target keeps now)
    (hid : doc.Within target id) (hlt : id < now.nodes.size) (hgrows : Grows now id next) :
    Framed doc target keeps next := by
  obtain ⟨hchange, new, hchildren, hnew⟩ := Changes.grows hlt hgrows
  exact h.change hdoc hid hchange
    (.inl ⟨new, hchildren, fun child hchild => Nat.le_trans h.size_le (hnew child hchild)⟩)

theorem Framed.pushNode (hdoc : doc.WellFormed) (h : Framed doc target keeps now)
    (hid : doc.Within target id) (hlt : id < now.nodes.size) (kind : NodeKind) :
    Framed doc target keeps (now.pushNode id kind).1 :=
  h.grows hdoc hid hlt (Grows.refl.push (.inl rfl) hlt kind)

theorem Framed.clear (hdoc : doc.WellFormed) (h : Framed doc target keeps now)
    (hid : doc.Within target id) (hroot : keeps → id ≠ root) :
    Framed doc target keeps (now.clear id) := by
  have hempty : (now.clear id).children id = [] := by rw [children_clear, if_pos rfl]
  exact h.change hdoc hid (.modifyNode now id fun _ => rfl) (.inr ⟨hempty, hroot⟩)

/-- **New definitions go in front of the root's children**, and only when it has none. -/
theorem Framed.defs (hdoc : doc.WellFormed) (h : Framed doc target keeps now)
    (hnone : ∀ child ∈ now.children root, now.tag? child ≠ some "defs") :
    Framed doc target keeps (now.prependElement root "defs").1 := by
  have hroot : root < now.nodes.size := Nat.lt_of_lt_of_le hdoc.root_lt h.size_le
  have hchange := Changes.prependElement now hroot "defs"
  have hchildren : (now.prependElement root "defs").1.children root
      = now.nodes.size :: now.children root := by
    rw [children_prependElement hroot, if_pos rfl]
  have htag : (now.prependElement root "defs").1.tag? now.nodes.size = some "defs" := by
    rw [tag?_eq_bind, getElem?_prependElement_new hroot]
    rfl
  refine ⟨Nat.le_trans h.size_le hchange.size_le, fun other hlt hne hout => ?_,
    fun other hlt => ?_, fun child hchild => ?_, fun htarget => ?_, fun hkeeps => ?_⟩
  · rw [hchange.same other (Nat.lt_of_lt_of_le hlt h.size_le) hne, h.same other hlt hne hout]
  · rw [hchange.tag?_eq other (Nat.lt_of_lt_of_le hlt h.size_le), h.tag?_eq other hlt]
  · rw [hchildren] at hchild
    rcases List.mem_cons.1 hchild with rfl | hold
    · exact .inr h.size_le
    · exact h.root_children child hold
  · rcases h.root_same htarget with hsame | ⟨-, node, new, -, -, hnew, hnow⟩
    · have hnode := Array.getElem?_eq_getElem hdoc.root_lt
      refine .inr ⟨fun child hchild => ?_, _, now.nodes.size, hnode, h.size_le, htag,
        getElem?_prependElement_parent "defs" (hsame.trans hnode)⟩
      rw [← h.tag?_eq child (hdoc.children_after hchild).2]
      exact hnone child (children_of_getElem? hsame ▸ hchild)
    · -- the definitions that were found to be missing are there
      have hmem : new ∈ now.children root := by
        rw [children_eq, hnow]
        exact List.mem_cons_self
      exact absurd hnew (hnone new hmem)
  · obtain ⟨front, back, hnow, hfront⟩ := h.kept hkeeps
    refine ⟨now.nodes.size :: front, back, by rw [hchildren, hnow]; rfl, fun child hchild => ?_⟩
    rcases List.mem_cons.1 hchild with rfl | hold
    · exact htag
    · exact hchange.tag?_front (hfront child hold)

/-- **What is drawn leaves the rest alone.** -/
theorem Drawn.framed (hdoc : doc.WellFormed) (h : Drawn doc target keeps now) :
    Framed doc target keeps now := by
  induction h with
  | refl => exact .refl doc target keeps
  | setAttr h hid name value ih => exact ih.modifyAttrs hdoc hid _
  | removeAttr h hid name ih => exact ih.modifyAttrs hdoc hid _
  | appendElement h hid hlt tag ih => exact ih.pushNode hdoc hid hlt _
  | appendText h hid hlt content ih => exact ih.pushNode hdoc hid hlt _
  | graft h hid hlt hbranch ih => exact ih.grows hdoc hid hlt (graft_grows hlt _)
  | clear h hid hroot ih => exact ih.clear hdoc hid hroot
  | defs h hlt hnone ih => exact ih.defs hdoc hnone

/-! ## What hangs at the root

An old branch stays what it was when no node of it is changed, which follows from the links between
nodes: what is below a child of the root is in no other list of children, and so is neither the
target nor a definition. -/

/-- The children of the root that are drawn, definitions aside. -/
def shapes (doc : Document) : List NodeId :=
  (doc.children root).filter fun child => doc.tag? child != some "defs"

/-- **What is drawn at the root comes behind what is there.** -/
theorem Framed.shapes_prefix (hdoc : doc.WellFormed) (h : Framed doc target keeps now)
    (hkeeps : keeps) : doc.shapes <+: now.shapes := by
  obtain ⟨front, back, hchildren, hfront⟩ := h.kept hkeeps
  have hnone : front.filter (fun child => now.tag? child != some "defs") = [] := by
    rw [List.filter_eq_nil_iff]
    intro child hchild
    simp [hfront child hchild]
  have hold : (doc.children root).filter (fun child => now.tag? child != some "defs")
      = doc.shapes := by
    refine List.filter_congr fun child hchild => ?_
    rw [h.tag?_eq child (hdoc.children_after hchild).2]
  rw [shapes.eq_1 now, hchildren, List.filter_append, List.filter_append, hnone, List.nil_append,
    hold]
  exact List.prefix_append _ _

/-- **Nothing below an old node is another**, if it is not the root and no definition.  The nodes
below it are in no other list of children, so that none of them is a definition either. -/
theorem Framed.branch_eq {loose : List NodeId} (hdoc : doc.WellFormed) (hlinked : doc.Linked loose)
    (hnow : now.WellFormed) (h : Framed doc root keeps now) (id : Nat) (hlt : id < doc.nodes.size)
    (hroot : id ≠ root) (hdefs : ¬doc.IsDefs id) : now.branch id = doc.branch id := by
  have hwithin : ¬doc.Within root id := by
    rintro (heq | hnew | hin)
    · exact hroot heq
    · exact absurd hlt (Nat.not_lt.2 hnew)
    · exact hdefs hin
  have hnode : now.nodes[id]? = doc.nodes[id]? := h.same id hlt hroot hwithin
  have hbelow : (now.children id).map now.branch = (doc.children id).map doc.branch := by
    rw [children_of_getElem? hnode]
    refine List.map_congr_left fun child hchild => ?_
    obtain ⟨hafter, hchildlt⟩ := hdoc.children_after hchild
    have hchildRoot : child ≠ root := Nat.ne_of_gt (Nat.lt_of_le_of_lt (Nat.zero_le id) hafter)
    have hchildDefs : ¬doc.IsDefs child := fun hin =>
      hroot (hlinked.parent_unique hchild hin.1)
    exact h.branch_eq hdoc hlinked hnow child hchildlt hchildRoot hchildDefs
  rw [hnow.branch_eq (Nat.lt_of_lt_of_le hlt h.size_le), hdoc.branch_eq hlt, hbelow, kind?, kind?,
    hnode]
termination_by doc.nodes.size - id

/-- **Later drawing does not paint over what is there**: the branches at the root, definitions
aside, are the first of those that the root has in the end. -/
theorem Drawn.branches_prefix (hdoc : doc.Reachable) (h : Drawn doc root keeps now)
    (hkeeps : keeps) : doc.shapes.map doc.branch <+: now.shapes.map now.branch := by
  have hwell := hdoc.wellFormed
  have hframed := h.framed hwell
  obtain ⟨loose, hhistory⟩ := hdoc.history
  have hsame : doc.shapes.map now.branch = doc.shapes.map doc.branch := by
    refine List.map_congr_left fun id hid => ?_
    obtain ⟨hchild, htag⟩ := List.mem_filter.1 hid
    obtain ⟨hafter, hlt⟩ := hwell.children_after hchild
    have hdefs : ¬doc.IsDefs id := fun hin => by simp [hin.2] at htag
    exact hframed.branch_eq hwell hhistory.linked (h.reachable hdoc).wellFormed id hlt
      (Nat.ne_of_gt hafter) hdefs
  rw [← hsame]
  exact (hframed.shapes_prefix hwell hkeeps).map now.branch

end Document
end Drawing
end Frontispiece
