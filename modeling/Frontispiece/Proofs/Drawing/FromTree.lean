import Frontispiece.Proofs.Drawing.Links
import Frontispiece.Proofs.Drawing.Reader

/-!
# The document of a tree

A tree that was read is put into a document node by node.  The document has the invariants of all
documents, its tree is the one that was put in, and nothing stands below its texts.

## What is here

* `Branch.ofTree_distinct` — what is put in has no attribute twice.
* `WellFormed.branch_of_holds` — a branch that is found at a node is the branch of the node.
* `wellFormed_ofTree`, `linked_ofTree`, `tree_ofTree` — the document of a tree.
* `TextsBare`, `textsBare_ofTree` — its texts have no children.

Documents come from trees in two places: when a drawing is minified and when it is imported.  In
both the tree was read from a text, so it has the properties of trees that are read, and these are
what the invariants need: no attribute twice, and an element as the root.  That a text has nothing
below it is true of such documents and not of all.
-/

set_option autoImplicit false

namespace Frontispiece
namespace Drawing

open Markup (Tree Readable)

/-! ## Branches

A tree and the branch that is made of it say the same, once as markup and once as nodes.  Going from
the one to the other and back is recursion on the tree. -/

mutual

/-- The branch of a tree that was read has no attribute twice. -/
theorem Branch.ofTree_distinct : ∀ {tree : Tree}, tree.Each Readable → (ofTree tree).Distinct
  | .text _, _ => ⟨trivial, trivial⟩
  | .element _ _ _, ⟨htag, hchildren⟩ => ⟨htag.nodup, Branch.ofTrees_distinct hchildren⟩

theorem Branch.ofTrees_distinct : ∀ {trees : List Tree}, Tree.EachIn Readable trees →
    AllDistinct (ofTrees trees)
  | [], _ => trivial
  | _ :: _, ⟨hchild, hrest⟩ => ⟨Branch.ofTree_distinct hchild, Branch.ofTrees_distinct hrest⟩

end

mutual

theorem Branch.tree_ofTree : ∀ tree : Tree, (ofTree tree).tree = tree
  | .text _ => rfl
  | .element tag attrs children => by rw [ofTree, tree, Branch.trees_ofTrees children]

theorem Branch.trees_ofTrees : ∀ trees : List Tree, Branch.trees (ofTrees trees) = trees
  | [] => rfl
  | child :: rest => by
    rw [ofTrees, trees, Branch.tree_ofTree child, Branch.trees_ofTrees rest]

end

namespace Document

variable {doc : Document} {id parent : NodeId}

mutual

/-- A branch that is found at a node is the branch of the node. -/
theorem WellFormed.branch_of_holds (h : doc.WellFormed) : ∀ {branch : Branch} {first id : NodeId},
    doc.Holds first id branch → doc.branch id = branch
  | ⟨kind, children⟩, _, id, ⟨_, hkind, hchildren⟩ => by
    rw [h.branch_eq (lt_of_kind? hkind), hkind, h.branches_of_holdsAll hchildren]
    rfl

theorem WellFormed.branches_of_holdsAll (h : doc.WellFormed) :
    ∀ {branches : List Branch} {first : NodeId} {ids : List NodeId},
    doc.HoldsAll first ids branches → ids.map doc.branch = branches
  | [], _, [], _ => rfl
  | _ :: _, _, _ :: _, ⟨hone, hrest⟩ => by
    rw [List.map_cons, h.branch_of_holds hone, h.branches_of_holdsAll hrest]

end

/-! ## The root

The document of a tree starts as its root alone.  All that has to be known of the start is that the
invariants hold of it. -/

/-- A document with an element and nothing else. -/
def single (tag : String) (attrs : Fields String) : Document :=
  ⟨#[⟨.element tag attrs, none, []⟩]⟩

variable {tag : String} {attrs : Fields String}

theorem getElem?_single {node : Node} (h : (single tag attrs).nodes[id]? = some node) :
    id = root ∧ node = ⟨.element tag attrs, none, []⟩ := by
  rcases id with _ | id
  · exact ⟨rfl, (Option.some.inj h).symm⟩
  · cases h

theorem children_single (tag : String) (attrs : Fields String) (id : NodeId) :
    (single tag attrs).children id = [] := by
  rw [children]
  split
  · next node hnode => rw [(getElem?_single hnode).2]
  · rfl

theorem parent?_single (tag : String) (attrs : Fields String) (id : NodeId) :
    (single tag attrs).parent? id = none := by
  rw [parent?, Option.bind_eq_none_iff]
  exact fun node hnode => by rw [(getElem?_single hnode).2]

theorem wellFormed_single (h : attrs.keys.Nodup) : (single tag attrs).WellFormed where
  root := ⟨_, rfl, rfl⟩
  fits id node hnode := by
    rw [(getElem?_single hnode).2]
    exact ⟨nofun, h⟩

theorem linked_single (tag : String) (attrs : Fields String) : (single tag attrs).Linked [] where
  mem_children_iff child parent := by simp [children_single, parent?_single]
  nodup parent := by simp [children_single]
  root := parent?_single tag attrs root
  loose_parent := nofun

/-! ## The whole document

The children of the tree are then grafted below the root, one branch after the other, so that the
lemmas on grafting give each invariant of the whole. -/

variable {children : List Tree}

theorem wellFormed_ofTree (h : (Tree.element tag attrs children).Each Readable) :
    (ofTree (.element tag attrs children)).WellFormed := by
  have hroot : root < (single tag attrs).nodes.size := Nat.zero_lt_one
  exact (WellFormed.graftAll _ (wellFormed_single h.1.nodup) root hroot
    (Branch.ofTrees_distinct h.2)).1

theorem linked_ofTree (tag : String) (attrs : Fields String) (children : List Tree) :
    (ofTree (.element tag attrs children)).Linked [] := by
  have hroot : root < (single tag attrs).nodes.size := Nat.zero_lt_one
  exact (linked_single tag attrs).grows (graftAll_grows hroot (Branch.ofTrees children))

/-- **The tree of the document is the tree that was put in.** -/
theorem tree_ofTree (h : (Tree.element tag attrs children).Each Readable) :
    (ofTree (.element tag attrs children)).tree root = .element tag attrs children := by
  have hwell := wellFormed_ofTree h
  obtain ⟨first, hholds⟩ := ofTree_holds (.element tag attrs children)
  rw [tree, hwell.branch_eq hwell.root_lt, kind?_root_ofTree, hwell.branches_of_holdsAll hholds]
  exact Branch.tree_ofTree (.element tag attrs children)

/-- Nothing stands below a text. -/
def TextsBare (doc : Document) : Prop :=
  ∀ id content, doc.kind? id = some (.text content) → doc.children id = []

/-- A new node below an element is below no text. -/
theorem TextsBare.pushNode (h : doc.TextsBare)
    (hparent : doc.kind? parent = some (.element tag attrs)) (kind : NodeKind) :
    (doc.pushNode parent kind).1.TextsBare := by
  intro id content hkind
  have hlt := lt_of_kind? hparent
  rw [kind?_pushNode] at hkind
  rw [children_pushNode hlt]
  split at hkind
  · next hnew =>
    have hnone : doc.children id = [] := by
      rw [hnew, children, Array.getElem?_eq_none (Nat.le_refl _)]
    rw [if_neg (by rw [hnew]; exact Nat.ne_of_gt hlt), hnone]
  · rw [if_neg (by rintro rfl; rw [hparent] at hkind; cases hkind), h id content hkind]

mutual

/-- Texts stay without children when a tree is grafted below an element. -/
theorem TextsBare.graft : ∀ (tree : Tree) {doc : Document} {parent : NodeId} {tag : String}
    {attrs : Fields String}, doc.TextsBare → doc.kind? parent = some (.element tag attrs) →
    (doc.graft parent (Branch.ofTree tree)).1.TextsBare
  | .text content, _, _, _, _, h, hparent => h.pushNode hparent (.text content)
  | .element tag attrs children, doc, parent, _, _, h, hparent => by
    have hnew : (doc.pushNode parent (.element tag attrs)).1.kind? doc.nodes.size
        = some (.element tag attrs) := by
      rw [kind?_pushNode, if_pos rfl]
    exact TextsBare.graftAll children (h.pushNode hparent _) hnew

/-- So they do when several trees are. -/
theorem TextsBare.graftAll : ∀ (trees : List Tree) {doc : Document} {parent : NodeId} {tag : String}
    {attrs : Fields String}, doc.TextsBare → doc.kind? parent = some (.element tag attrs) →
    (doc.graftAll parent (Branch.ofTrees trees)).TextsBare
  | [], _, _, _, _, h, _ => h
  | child :: rest, doc, parent, tag, attrs, h, hparent => by
    have hlt := lt_of_kind? hparent
    have hkept : (doc.graft parent (Branch.ofTree child)).1.kind? parent
        = some (.element tag attrs) := by
      rw [(graft_grows hlt _).kind?_eq hlt, hparent]
    exact TextsBare.graftAll rest (TextsBare.graft child h hparent) hkept

end

theorem textsBare_ofTree (tag : String) (attrs : Fields String) (children : List Tree) :
    (ofTree (.element tag attrs children)).TextsBare :=
  TextsBare.graftAll children (fun id _ _ => children_single tag attrs id)
    (kind?_root_ofTree tag attrs [])

end Document
end Drawing
end Frontispiece
