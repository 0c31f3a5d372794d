import Frontispiece.Drawing.Document
import Frontispiece.Proofs.Json.Fields

/-!
# Reachable documents

A document keeps its nodes in the order of their making, and what it says about children is only
good because no operation ever puts a node below a later one.  `Reachable` lists the operations, and
`WellFormed` is the invariant that they keep.

## What is here

* `Reachable` — documents that the operations make, applied to nodes of the document at hand.
* `WellFormed` — the invariant, with a lemma for each operation.
* `Reachable.wellFormed` — so children come after their parents, attributes have distinct names, and
  the root is an element.
* `branch_eq` — the walk that reads a branch has enough fuel, so a branch is its node with the
  branches of its children.
* `tree_element`, `tree_text` — the same for its markup.

`Reachable` has one constructor for each operation and no conditions other than that the numbers are
those of nodes.  So a theorem about reachable documents is about all documents that the program can
have, whatever scene, import or minification they come from.  `WellFormed` is what is used of that
in most proofs.  It is weaker, and says nothing of parents; those have their own invariant.
-/

set_option autoImplicit false

namespace Frontispiece
namespace Drawing

open Markup (Tree)

/-! ## Distinct attributes

Attributes are written in the order of their list, and reading refuses a tag with one name twice.
So this is asked of every node and of every branch that is copied. -/

namespace NodeKind

/-- Whether a node is an element. -/
def isElement : NodeKind → Bool
  | .element .. => true
  | .text _ => false

/-- No attribute comes twice. -/
def Distinct : NodeKind → Prop
  | .element _ attrs => attrs.keys.Nodup
  | .text _ => True

end NodeKind

namespace Branch

mutual

/-- No attribute comes twice in a node of the branch. -/
def Distinct : Branch → Prop
  | ⟨kind, children⟩ => kind.Distinct ∧ AllDistinct children

/-- The same for branches. -/
def AllDistinct : List Branch → Prop
  | [] => True
  | child :: rest => child.Distinct ∧ AllDistinct rest

end

end Branch

/-! ## Reachable documents

`Reachable` is as wide as the operations are: it lets them be applied in any order to any nodes that
there are.  What a scene or a reader of markup makes is only some of these documents. -/

namespace Document

/-- The documents that operations make out of a root.  Nodes are made below nodes that the document
has, and whatever is copied has no attribute twice. -/
inductive Reachable : Document → Prop where
  | withRoot (tag : String) : Reachable (withRoot tag)
  | setAttr {doc : Document} (h : Reachable doc) (id : NodeId) (name value : String) :
    Reachable (doc.setAttr id name value)
  | removeAttr {doc : Document} (h : Reachable doc) (id : NodeId) (name : String) :
    Reachable (doc.removeAttr id name)
  | appendElement {doc : Document} (h : Reachable doc) {parent : NodeId}
    (hparent : parent < doc.nodes.size) (tag : String) :
    Reachable (doc.appendElement parent tag).1
  | prependElement {doc : Document} (h : Reachable doc) {parent : NodeId}
    (hparent : parent < doc.nodes.size) (tag : String) :
    Reachable (doc.prependElement parent tag).1
  | appendText {doc : Document} (h : Reachable doc) {parent : NodeId}
    (hparent : parent < doc.nodes.size) (content : String) :
    Reachable (doc.appendText parent content).1
  | clear {doc : Document} (h : Reachable doc) (id : NodeId) : Reachable (doc.clear id)
  | detach {doc : Document} (h : Reachable doc) (id : NodeId) : Reachable (doc.detach id)
  | graft {doc : Document} (h : Reachable doc) {parent : NodeId}
    (hparent : parent < doc.nodes.size) {branch : Branch} (hbranch : branch.Distinct) :
    Reachable (doc.graft parent branch).1

/-- An empty drawing is made by setting attributes of its root. -/
theorem ofSettings_reachable (settings : Settings) : (ofSettings settings).Reachable := by
  have hfold : ∀ (attrs : List (String × String)) {doc : Document}, doc.Reachable →
      (attrs.foldl (fun doc entry => doc.setAttr root entry.1 entry.2) doc).Reachable := by
    intro attrs
    induction attrs with
    | nil => exact fun h => h
    | cons entry rest ih => exact fun h => ih (h.setAttr root entry.1 entry.2)
  exact hfold _ (.withRoot "svg")

/-! ## What the operations do to nodes

All operations change one node in its place or add one at the end, or both.  These lemmas say what
is found under each number after either; no later proof looks into the array. -/

variable (doc : Document)

@[simp] theorem size_modifyNode (id : NodeId) (f : Node → Node) :
    (doc.modifyNode id f).nodes.size = doc.nodes.size := Array.size_modify

/-- Only the node that is changed is another. -/
theorem getElem?_modifyNode (id other : NodeId) (f : Node → Node) :
    (doc.modifyNode id f).nodes[other]?
      = if id = other then doc.nodes[other]?.map f else doc.nodes[other]? := by
  rw [modifyNode, Array.getElem?_modify]

@[simp] theorem size_pushNode (parent : NodeId) (kind : NodeKind) :
    (doc.pushNode parent kind).1.nodes.size = doc.nodes.size + 1 := by
  simp [pushNode]

end Document

/-! ## The invariant

Children come after their parents, because a node is made below one that is there already.  Every
walk down a document rests on this: it is what makes the walk end. -/

/-- A node under a number in a document with so many nodes: its children come after it. -/
structure Node.Fits (node : Node) (id : NodeId) (size : Nat) : Prop where
  after : ∀ child ∈ node.children, id < child ∧ child < size
  distinct : node.kind.Distinct

/-- What operations keep true of a document. -/
structure Document.WellFormed (doc : Document) : Prop where
  root : ∃ node, doc.nodes[Document.root]? = some node ∧ node.kind.isElement = true
  fits : ∀ (id : NodeId) (node : Node), doc.nodes[id]? = some node → node.Fits id doc.nodes.size

namespace Document

variable {doc : Document}

/-- A node may be changed if it stays an element, should it be one, and its links still fit. -/
theorem WellFormed.modifyNode (h : doc.WellFormed) {id : NodeId} {f : Node → Node}
    (hkind : ∀ node, node.kind.isElement = true → (f node).kind.isElement = true)
    (hfits : ∀ node, node.Fits id doc.nodes.size → (f node).Fits id doc.nodes.size) :
    (doc.modifyNode id f).WellFormed where
  root := by
    obtain ⟨node, hnode, helement⟩ := h.root
    rw [getElem?_modifyNode, hnode]
    split
    · exact ⟨f node, rfl, hkind node helement⟩
    · exact ⟨node, rfl, helement⟩
  fits other node hnode := by
    rw [getElem?_modifyNode] at hnode
    rw [size_modifyNode]
    split at hnode
    · next heq =>
      obtain ⟨before, hbefore, rfl⟩ := Option.map_eq_some_iff.1 hnode
      subst heq
      exact hfits before (h.fits id before hbefore)
    · exact h.fits other node hnode

theorem WellFormed.root_lt (h : doc.WellFormed) : Document.root < doc.nodes.size := by
  obtain ⟨node, hnode, -⟩ := h.root
  exact (Array.getElem?_eq_some_iff.1 hnode).1

/-- Changing attributes keeps the invariant when their names stay distinct. -/
theorem WellFormed.modifyAttrs (h : doc.WellFormed) (id : NodeId)
    {f : Fields String → Fields String} (hf : ∀ attrs, attrs.keys.Nodup → (f attrs).keys.Nodup) :
    (doc.modifyAttrs id f).WellFormed := by
  refine h.modifyNode (fun node helement => ?_) fun node hnode => ?_
  · cases hkind : node.kind with
    | element tag attrs => rfl
    | text content => simpa [hkind] using helement
  · cases hkind : node.kind with
    | element tag attrs =>
      have hdistinct : attrs.keys.Nodup := by simpa [hkind, NodeKind.Distinct] using hnode.distinct
      exact ⟨hnode.after, hf attrs hdistinct⟩
    | text content => exact hnode

/-- Changing children keeps the invariant when new ones come after the node. -/
theorem WellFormed.modifyChildren (h : doc.WellFormed) (id : NodeId)
    {f : List NodeId → List NodeId}
    (hf : ∀ children child, child ∈ f children →
      child ∈ children ∨ (id < child ∧ child < doc.nodes.size)) :
    (doc.modifyNode id fun node => { node with children := f node.children }).WellFormed := by
  refine h.modifyNode (fun node helement => helement) fun node hnode => ⟨fun child hchild => ?_,
    hnode.distinct⟩
  rcases hf node.children child hchild with hold | hnew
  · exact hnode.after child hold
  · exact hnew

/-- A new node at the end keeps the invariant, before its parent knows of it. -/
theorem WellFormed.push (h : doc.WellFormed) {node : Node} (hchildren : node.children = [])
    (hdistinct : node.kind.Distinct) : (⟨doc.nodes.push node⟩ : Document).WellFormed where
  root := by
    obtain ⟨first, hfirst, helement⟩ := h.root
    refine ⟨first, ?_, helement⟩
    rw [Array.getElem?_push_lt h.root_lt, ← hfirst, Array.getElem?_eq_getElem h.root_lt]
  fits id other hother := by
    rw [Array.size_push]
    rw [Array.getElem?_push] at hother
    split at hother
    · cases hother
      exact ⟨by simp [hchildren], hdistinct⟩
    · have hfits := h.fits id other hother
      exact ⟨fun child hchild => ⟨(hfits.after child hchild).1,
        Nat.lt_succ_of_lt (hfits.after child hchild).2⟩, hfits.distinct⟩

/-- **A new node comes after its parent.** -/
theorem WellFormed.pushNode (h : doc.WellFormed) {parent : NodeId}
    (hparent : parent < doc.nodes.size) {kind : NodeKind} (hdistinct : kind.Distinct) :
    (doc.pushNode parent kind).1.WellFormed := by
  have hpush : (⟨doc.nodes.push ⟨kind, some parent, []⟩⟩ : Document).WellFormed :=
    h.push rfl hdistinct
  refine hpush.modifyChildren (f := fun children => children ++ [doc.nodes.size]) parent
    fun children child hchild => ?_
  rcases List.mem_append.1 hchild with hold | hnew
  · exact .inl hold
  · rw [List.mem_singleton] at hnew
    rw [hnew, Array.size_push]
    exact .inr ⟨hparent, Nat.lt_succ_self _⟩

/-- A new first child fits, as a new last child does. -/
theorem WellFormed.prependElement (h : doc.WellFormed) {parent : NodeId}
    (hparent : parent < doc.nodes.size) (tag : String) :
    (doc.prependElement parent tag).1.WellFormed := by
  have happend : (doc.appendElement parent tag).1.WellFormed := h.pushNode hparent List.nodup_nil
  refine happend.modifyChildren (f := fun children => doc.nodes.size :: children.dropLast) parent
    fun children child hchild => ?_
  rcases List.mem_cons.1 hchild with rfl | hold
  · rw [appendElement, size_pushNode]
    exact .inr ⟨hparent, Nat.lt_succ_self _⟩
  · exact .inl (List.dropLast_subset children hold)

/-- A node that is detached leaves nothing behind that would not fit. -/
theorem WellFormed.detach (h : doc.WellFormed) (id : NodeId) : (doc.detach id).WellFormed := by
  rw [Document.detach]
  split
  · exact h
  · next parent _ =>
    have hcut : (doc.modifyNode id fun node => { node with parent := none }).WellFormed :=
      h.modifyNode (fun _ helement => helement) fun _ hnode => ⟨hnode.after, hnode.distinct⟩
    exact hcut.modifyChildren parent fun children child hchild =>
      .inl (List.mem_filter.1 hchild).1

end Document

/-! ## Copies of branches

Copying goes by recursion on the branch, and the numbers of new nodes depend on how many were made
before.  The proofs follow that recursion, with the branch and the list of branches in turn. -/

namespace Branch

theorem allDistinct_iff : ∀ {branches : List Branch},
    AllDistinct branches ↔ ∀ branch ∈ branches, branch.Distinct
  | [] => by simp [AllDistinct]
  | child :: rest => by simp [AllDistinct, allDistinct_iff]

theorem trees_eq_map : ∀ branches : List Branch, trees branches = branches.map Branch.tree
  | [] => rfl
  | child :: rest => by rw [trees, trees_eq_map rest, List.map_cons]

end Branch

namespace Document

variable {doc : Document}

/-- The branches of a document are as distinct as its nodes. -/
theorem WellFormed.branchWithin_distinct (h : doc.WellFormed) :
    ∀ (fuel : Nat) (id : NodeId), (doc.branchWithin fuel id).Distinct
  | 0, _ => ⟨trivial, trivial⟩
  | fuel + 1, id => by
    rw [branchWithin, Branch.Distinct, Branch.allDistinct_iff]
    refine ⟨?_, fun branch hbranch => ?_⟩
    · rw [kind?]
      cases hnode : doc.nodes[id]? with
      | none => exact trivial
      | some node => exact (h.fits id node hnode).distinct
    · obtain ⟨child, -, rfl⟩ := List.mem_map.1 hbranch
      exact h.branchWithin_distinct fuel child

theorem graft_fst (doc : Document) (parent : NodeId) (kind : NodeKind) (children : List Branch) :
    (doc.graft parent ⟨kind, children⟩).1
      = (doc.pushNode parent kind).1.graftAll doc.nodes.size children := rfl

mutual

/-- **Copying a branch keeps the invariant.** -/
theorem WellFormed.graft : ∀ (branch : Branch) {doc : Document}, doc.WellFormed →
    ∀ parent : NodeId, parent < doc.nodes.size → branch.Distinct →
    (doc.graft parent branch).1.WellFormed ∧ doc.nodes.size ≤ (doc.graft parent branch).1.nodes.size
  | ⟨kind, children⟩, doc, h, parent, hparent, hbranch => by
    have hsize : doc.nodes.size < (doc.pushNode parent kind).1.nodes.size := by simp
    obtain ⟨hall, hgrown⟩ := WellFormed.graftAll children (h.pushNode hparent hbranch.1)
      doc.nodes.size hsize hbranch.2
    rw [graft_fst]
    exact ⟨hall, Nat.le_trans (Nat.le_of_lt hsize) hgrown⟩

/-- Branches are grafted one after the other, and each makes the document longer. -/
theorem WellFormed.graftAll : ∀ (branches : List Branch) {doc : Document}, doc.WellFormed →
    ∀ parent : NodeId, parent < doc.nodes.size → Branch.AllDistinct branches →
    (doc.graftAll parent branches).WellFormed ∧
      doc.nodes.size ≤ (doc.graftAll parent branches).nodes.size
  | [], doc, h, parent, hparent, _ => ⟨h, Nat.le_refl _⟩
  | child :: rest, doc, h, parent, hparent, hbranches => by
    obtain ⟨hgraft, hsize⟩ := WellFormed.graft child h parent hparent hbranches.1
    obtain ⟨hall, hgrown⟩ := WellFormed.graftAll rest hgraft parent
      (Nat.lt_of_lt_of_le hparent hsize) hbranches.2
    rw [Document.graftAll]
    exact ⟨hall, Nat.le_trans hsize hgrown⟩

end

/-- A document of a root alone. -/
theorem withRoot_wellFormed (tag : String) : (withRoot tag).WellFormed where
  root := ⟨_, rfl, rfl⟩
  fits id node hnode := by
    have hnode : node = ⟨.element tag [], none, []⟩ := by
      rcases id with _ | id
      · exact (Option.some.inj hnode).symm
      · cases hnode
    subst hnode
    exact ⟨by simp, List.nodup_nil⟩

/-- **The operations keep the invariant.** -/
theorem Reachable.wellFormed (h : doc.Reachable) : doc.WellFormed := by
  induction h with
  | withRoot tag => exact withRoot_wellFormed tag
  | setAttr h id name value ih => exact ih.modifyAttrs id fun _ => Fields.insert_nodup name value
  | removeAttr h id name ih => exact ih.modifyAttrs id fun _ => Fields.erase_nodup name
  | appendElement h hparent tag ih => exact ih.pushNode hparent List.nodup_nil
  | prependElement h hparent tag ih => exact ih.prependElement hparent tag
  | appendText h hparent content ih => exact ih.pushNode hparent trivial
  | clear h id ih =>
    exact ih.modifyChildren (f := fun _ => []) id fun _ _ hchild => (by cases hchild)
  | detach h id ih => exact ih.detach id
  | graft h hparent hbranch ih => exact (WellFormed.graft _ ih _ hparent hbranch).1

/-- A node of one reachable document may be copied into another. -/
theorem Reachable.graft_branch {source : Document} (h : doc.Reachable) (hsource : source.Reachable)
    {parent : NodeId} (hparent : parent < doc.nodes.size) (id : NodeId) :
    (doc.graft parent (source.branch id)).1.Reachable :=
  h.graft hparent (hsource.wellFormed.branchWithin_distinct _ id)

/-! ## Branches and trees without fuel

The walk that reads a branch has the number of nodes as fuel.  Since children come after their
parents, what is left of it is always enough for the nodes that come after, and the equations here
no longer mention it. -/

theorem exists_kind? {id : NodeId} (h : id < doc.nodes.size) : ∃ kind, doc.kind? id = some kind :=
  ⟨_, by rw [kind?, Array.getElem?_eq_getElem h, Option.map_some]⟩

/-- The children of a node come after it. -/
theorem WellFormed.children_after (h : doc.WellFormed) {id child : Nat}
    (hchild : child ∈ doc.children id) : id < child ∧ child < doc.nodes.size := by
  rw [children] at hchild
  cases hnode : doc.nodes[id]? with
  | none =>
    rw [hnode] at hchild
    cases hchild
  | some node =>
    rw [hnode] at hchild
    exact (h.fits id node hnode).after child hchild

/-- Fuel for the nodes from `id` on is enough, and more changes nothing. -/
theorem WellFormed.branchWithin_congr (h : doc.WellFormed) : ∀ m n id : Nat,
    id < doc.nodes.size → doc.nodes.size ≤ id + m → doc.nodes.size ≤ id + n →
    doc.branchWithin m id = doc.branchWithin n id
  | 0, _, id, hid, hm, _ => absurd hid (by omega)
  | _ + 1, 0, id, hid, _, hn => absurd hid (by omega)
  | m + 1, n + 1, id, hid, hm, hn => by
    have hchildren : (doc.children id).map (doc.branchWithin m)
        = (doc.children id).map (doc.branchWithin n) := by
      refine List.map_congr_left fun child hchild => ?_
      obtain ⟨hafter, hlt⟩ := h.children_after hchild
      exact h.branchWithin_congr m n child hlt (by omega) (by omega)
    rw [branchWithin, branchWithin, hchildren]

/-- **A branch is its node with the branches of its children.** -/
theorem WellFormed.branch_eq (h : doc.WellFormed) {id : NodeId} (hid : id < doc.nodes.size) :
    doc.branch id = ⟨(doc.kind? id).getD (.text ""), (doc.children id).map doc.branch⟩ := by
  have hone : doc.branch id = doc.branchWithin (doc.nodes.size + 1) id :=
    h.branchWithin_congr _ _ id hid (by omega) (by omega)
  rw [hone, branchWithin]
  rfl

/-- The markup of an element. -/
theorem WellFormed.tree_element (h : doc.WellFormed) {id : NodeId} {tag : String}
    {attrs : Fields String} (hkind : doc.kind? id = some (.element tag attrs)) :
    doc.tree id = .element tag attrs ((doc.children id).map doc.tree) := by
  have hid : id < doc.nodes.size := by
    obtain ⟨node, hnode, -⟩ := Option.map_eq_some_iff.1 hkind
    exact (Array.getElem?_eq_some_iff.1 hnode).1
  rw [tree, h.branch_eq hid, hkind, Option.getD_some, Branch.tree, Branch.trees_eq_map,
    List.map_map]
  rfl

/-- The markup of a text, whatever was put below it. -/
theorem WellFormed.tree_text (h : doc.WellFormed) {id : NodeId} {content : String}
    (hkind : doc.kind? id = some (.text content)) : doc.tree id = .text content := by
  have hid : id < doc.nodes.size := by
    obtain ⟨node, hnode, -⟩ := Option.map_eq_some_iff.1 hkind
    exact (Array.getElem?_eq_some_iff.1 hnode).1
  rw [tree, h.branch_eq hid, hkind, Option.getD_some, Branch.tree]

end Document
end Drawing
end Frontispiece
