import Frontispiece.Proofs.Drawing.Document

/-!
# Operations on a document

The operations as data, so that a run of them can be spoken of, and what each of them leaves of the
nodes that a document has.

## What is here

* `Operation` — the operations with the numbers that they are given, and `Operation.apply`.
* `Issued` — the numbers are those of nodes of the document.  `Reachable` documents are closed under
  such operations.
* `Grows` — new nodes are made one after the other.  Copies of branches are no more than that, by
  `graft_grows`, so what one new node keeps a copy keeps.
* A lemma for each operation on what it leaves of parents and lists of children.

The lemmas come in rows: what an operation does to the size, to the kind of a node, to its parent,
and to its children.  They are proved from what it does to the array, once for a change in place and
once for a new node, and no other module looks into the array.  If an operation is added, these rows
are what it needs.
-/

set_option autoImplicit false

namespace Frontispiece
namespace Drawing

/-- What can be done to a document. -/
inductive Operation where
  | setAttr (id : NodeId) (name value : String)
  | removeAttr (id : NodeId) (name : String)
  | appendElement (parent : NodeId) (tag : String)
  | prependElement (parent : NodeId) (tag : String)
  | appendText (parent : NodeId) (content : String)
  | clear (id : NodeId)
  | detach (id : NodeId)
  | graft (parent : NodeId) (branch : Branch)

namespace Operation

/-- The document after an operation. -/
def apply (doc : Document) : Operation → Document
  | setAttr id name value => doc.setAttr id name value
  | removeAttr id name => doc.removeAttr id name
  | appendElement parent tag => (doc.appendElement parent tag).1
  | prependElement parent tag => (doc.prependElement parent tag).1
  | appendText parent content => (doc.appendText parent content).1
  | clear id => doc.clear id
  | detach id => doc.detach id
  | graft parent branch => (doc.graft parent branch).1

/-- Nodes are made below nodes of the document, and no branch of a document has an attribute twice.
A number of no node makes the other operations do nothing. -/
def Issued (doc : Document) : Operation → Prop
  | appendElement parent _ | prependElement parent _ | appendText parent _ =>
    parent < doc.nodes.size
  | graft parent branch => parent < doc.nodes.size ∧ branch.Distinct
  | setAttr .. | removeAttr .. | clear _ | detach _ => True

end Operation

namespace Document

variable {doc now : Document} {parent : NodeId}

/-- A document stays reachable by an operation that a program can issue. -/
theorem Reachable.apply (h : doc.Reachable) {op : Operation} (hop : op.Issued doc) :
    (op.apply doc).Reachable := by
  cases op with
  | setAttr id name value => exact h.setAttr id name value
  | removeAttr id name => exact h.removeAttr id name
  | appendElement parent tag => exact h.appendElement hop tag
  | prependElement parent tag => exact h.prependElement hop tag
  | appendText parent content => exact h.appendText hop content
  | clear id => exact h.clear id
  | detach id => exact h.detach id
  | graft parent branch => exact h.graft hop.1 hop.2

/-! ## Nodes that are there

A number beyond the document has no kind, no tag, no parent and no children.  So whatever is found
under a number says that the number is in range. -/

theorem children_eq (doc : Document) (id : NodeId) :
    doc.children id = (doc.nodes[id]?.map Node.children).getD [] := by
  rw [children]
  cases doc.nodes[id]? with
  | none => rfl
  | some node => rfl

theorem lt_of_kind? {id : NodeId} {kind : NodeKind} (h : doc.kind? id = some kind) :
    id < doc.nodes.size := by
  obtain ⟨node, hnode, -⟩ := Option.map_eq_some_iff.1 h
  exact (Array.getElem?_eq_some_iff.1 hnode).1

theorem lt_of_tag? {id : NodeId} {tag : String} (h : doc.tag? id = some tag) :
    id < doc.nodes.size := by
  rw [tag?] at h
  cases hkind : doc.kind? id with
  | none => simp [hkind] at h
  | some kind => exact lt_of_kind? hkind

theorem lt_of_parent? {id : NodeId} (h : doc.parent? id = some parent) : id < doc.nodes.size := by
  obtain ⟨node, hnode, -⟩ := Option.bind_eq_some_iff.1 h
  exact (Array.getElem?_eq_some_iff.1 hnode).1

/-! ## Sizes

No operation takes a node out of the document.  The number of nodes grows by one for a new node and
stays for everything else. -/

section

variable (doc) (id : NodeId)

@[simp] theorem size_setAttr (name value : String) :
    (doc.setAttr id name value).nodes.size = doc.nodes.size := size_modifyNode doc id _

@[simp] theorem size_removeAttr (name : String) :
    (doc.removeAttr id name).nodes.size = doc.nodes.size := size_modifyNode doc id _

@[simp] theorem size_appendElement (tag : String) :
    (doc.appendElement id tag).1.nodes.size = doc.nodes.size + 1 := size_pushNode doc id _

@[simp] theorem size_appendText (content : String) :
    (doc.appendText id content).1.nodes.size = doc.nodes.size + 1 := size_pushNode doc id _

@[simp] theorem size_prependElement (tag : String) :
    (doc.prependElement id tag).1.nodes.size = doc.nodes.size + 1 := by
  rw [prependElement, size_modifyNode, size_appendElement]

@[simp] theorem size_clear : (doc.clear id).nodes.size = doc.nodes.size := size_modifyNode doc id _

end

/-! ## A node changed in its place

Changing a node leaves what is not changed of it, and all of the others.  Attributes, parents and
children are looked at one by one, since most operations change one of them only. -/

section

variable (doc) (id other : NodeId)

theorem kind?_modifyNode {f : Node → Node} (hf : ∀ node, (f node).kind = node.kind) :
    (doc.modifyNode id f).kind? other = doc.kind? other := by
  rw [kind?, getElem?_modifyNode, kind?]
  split
  · cases doc.nodes[other]? with
    | none => rfl
    | some node => exact congrArg some (hf node)
  · rfl

theorem parent?_modifyNode {f : Node → Node} (hf : ∀ node, (f node).parent = node.parent) :
    (doc.modifyNode id f).parent? other = doc.parent? other := by
  rw [parent?, getElem?_modifyNode, parent?]
  split
  · cases doc.nodes[other]? with
    | none => rfl
    | some node => exact hf node
  · rfl

theorem children_modifyNode {f : Node → Node} (hf : ∀ node, (f node).children = node.children) :
    (doc.modifyNode id f).children other = doc.children other := by
  rw [children_eq, getElem?_modifyNode, children_eq]
  split
  · cases doc.nodes[other]? with
    | none => rfl
    | some node => exact hf node
  · rfl

/-- Attributes have nothing to do with parents, nor with children. -/
theorem parent?_modifyAttrs (f : Fields String → Fields String) :
    (doc.modifyAttrs id f).parent? other = doc.parent? other := by
  refine parent?_modifyNode doc id other fun node => ?_
  cases node.kind with
  | element tag attrs => rfl
  | text content => rfl

theorem children_modifyAttrs (f : Fields String → Fields String) :
    (doc.modifyAttrs id f).children other = doc.children other := by
  refine children_modifyNode doc id other fun node => ?_
  cases node.kind with
  | element tag attrs => rfl
  | text content => rfl

/-- A list of children changed. -/
theorem children_modifyChildren (f : List NodeId → List NodeId) :
    (doc.modifyNode id fun node => { node with children := f node.children }).children other
      = if other = id ∧ other < doc.nodes.size then f (doc.children other)
        else doc.children other := by
  rw [children_eq, getElem?_modifyNode, children_eq]
  by_cases heq : id = other
  · by_cases hlt : other < doc.nodes.size
    · simp [heq, hlt]
    · simp [heq, hlt]
  · have hne : ¬other = id := fun h => heq h.symm
    simp [heq, hne]

end

/-! ## A new node

A new node is put at the end, and then its parent is told.  So three kinds of nodes have to be told
apart: the parent, the new node, and the others. -/

/-- A new node leaves every node but its parent as it is. -/
theorem getElem?_pushNode (doc : Document) (kind : NodeKind) {id : NodeId} (hne : id ≠ parent)
    (hlt : id < doc.nodes.size) :
    (doc.pushNode parent kind).1.nodes[id]? = doc.nodes[id]? := by
  rw [pushNode, getElem?_modifyNode, if_neg hne.symm, Array.getElem?_push_lt hlt,
    Array.getElem?_eq_getElem hlt]

/-- The parent has the new node as its last child. -/
theorem getElem?_pushNode_parent (kind : NodeKind) {node : Node}
    (hnode : doc.nodes[parent]? = some node) :
    (doc.pushNode parent kind).1.nodes[parent]?
      = some { node with children := node.children ++ [doc.nodes.size] } := by
  have hlt : parent < doc.nodes.size := (Array.getElem?_eq_some_iff.1 hnode).1
  rw [pushNode, getElem?_modifyNode, if_pos rfl, Array.getElem?_push_lt hlt,
    ← Array.getElem?_eq_getElem hlt, hnode]
  rfl

theorem getElem?_pushNode_new (hparent : parent < doc.nodes.size) (kind : NodeKind) :
    (doc.pushNode parent kind).1.nodes[doc.nodes.size]? = some ⟨kind, some parent, []⟩ := by
  rw [pushNode, getElem?_modifyNode, if_neg (Nat.ne_of_lt hparent), Array.getElem?_push_size]

/-- A new node leaves the kinds of the others as they are. -/
theorem kind?_pushNode (doc : Document) (parent : NodeId) (kind : NodeKind) (id : NodeId) :
    (doc.pushNode parent kind).1.kind? id
      = if id = doc.nodes.size then some kind else doc.kind? id := by
  rw [pushNode]
  dsimp only
  rw [kind?_modifyNode]
  · rw [kind?, kind?, Array.getElem?_push]
    split
    · rfl
    · rfl
  · exact fun _ => rfl

/-- A new node has its parent, and the parents of the others stay. -/
theorem parent?_pushNode (hparent : parent < doc.nodes.size) (kind : NodeKind) (id : NodeId) :
    (doc.pushNode parent kind).1.parent? id
      = if id = doc.nodes.size then some parent else doc.parent? id := by
  by_cases hnew : id = doc.nodes.size
  · rw [if_pos hnew, hnew, parent?, getElem?_pushNode_new hparent]
    rfl
  · rw [if_neg hnew, pushNode]
    dsimp only
    rw [parent?_modifyNode, parent?, parent?, Array.getElem?_push, if_neg hnew]
    exact fun _ => rfl

/-- A new node comes last among the children of its parent. -/
theorem children_pushNode (hparent : parent < doc.nodes.size) (kind : NodeKind) (id : NodeId) :
    (doc.pushNode parent kind).1.children id
      = if id = parent then doc.children id ++ [doc.nodes.size] else doc.children id := by
  have hpush : (⟨doc.nodes.push ⟨kind, some parent, []⟩⟩ : Document).children id
      = doc.children id := by
    rw [children_eq, children_eq, Array.getElem?_push]
    split
    · next hnew => simp [hnew]
    · rfl
  rw [pushNode]
  dsimp only
  rw [children_modifyChildren _ _ _ fun children => children ++ [doc.nodes.size], hpush,
    Array.size_push]
  by_cases heq : id = parent
  · rw [if_pos ⟨heq, heq ▸ Nat.lt_succ_of_lt hparent⟩, if_pos heq]
  · rw [if_neg fun h => heq h.1, if_neg heq]

theorem getElem?_prependElement_parent (tag : String) {node : Node}
    (hnode : doc.nodes[parent]? = some node) :
    (doc.prependElement parent tag).1.nodes[parent]?
      = some { node with children := doc.nodes.size :: node.children } := by
  rw [prependElement, appendElement, getElem?_modifyNode, if_pos rfl,
    getElem?_pushNode_parent (.element tag []) hnode, Option.map_some, List.dropLast_concat]
  rfl

theorem getElem?_prependElement_new (hparent : parent < doc.nodes.size) (tag : String) :
    (doc.prependElement parent tag).1.nodes[doc.nodes.size]?
      = some ⟨.element tag [], some parent, []⟩ := by
  rw [prependElement, appendElement, getElem?_modifyNode, if_neg (Nat.ne_of_lt hparent),
    getElem?_pushNode_new hparent]

/-- A new first child is the new node put in front. -/
theorem children_prependElement (hparent : parent < doc.nodes.size) (tag : String) (id : NodeId) :
    (doc.prependElement parent tag).1.children id
      = if id = parent then doc.nodes.size :: doc.children id else doc.children id := by
  rw [prependElement, appendElement]
  dsimp only
  rw [children_modifyChildren _ _ _ fun children => _ :: children.dropLast,
    children_pushNode hparent, size_pushNode]
  by_cases heq : id = parent
  · rw [if_pos ⟨heq, heq ▸ Nat.lt_succ_of_lt hparent⟩, if_pos heq, if_pos heq,
      List.dropLast_concat]
    rfl
  · rw [if_neg fun h => heq h.1, if_neg heq, if_neg heq]

theorem parent?_prependElement (hparent : parent < doc.nodes.size) (tag : String) (id : NodeId) :
    (doc.prependElement parent tag).1.parent? id
      = if id = doc.nodes.size then some parent else doc.parent? id := by
  rw [prependElement, appendElement, ← parent?_pushNode hparent (.element tag [])]
  exact parent?_modifyNode _ _ _ fun _ => rfl

/-! ## Nodes cut off

`clear` empties the list of children of a node and `detach` takes a node out of the list of its
parent.  Only the second also changes the node that is cut off. -/

theorem parent?_clear (doc : Document) (id other : NodeId) :
    (doc.clear id).parent? other = doc.parent? other :=
  parent?_modifyNode _ _ _ fun _ => rfl

/-- A node that is cleared has no children, and the others keep theirs. -/
theorem children_clear (doc : Document) (id other : NodeId) :
    (doc.clear id).children other = if other = id then [] else doc.children other := by
  rw [clear, children_modifyChildren _ _ _ fun _ => []]
  by_cases heq : other = id
  · by_cases hlt : other < doc.nodes.size
    · rw [if_pos ⟨heq, hlt⟩, if_pos heq]
    · rw [if_neg fun h => hlt h.2, if_pos heq, children_eq,
        Array.getElem?_eq_none (Nat.le_of_not_lt hlt)]
      rfl
  · rw [if_neg fun h => heq h.1, if_neg heq]

theorem detach_of_none {id : NodeId} (h : doc.parent? id = none) : doc.detach id = doc := by
  rw [detach, h]

/-- A node that is detached has no parent, and the others keep theirs. -/
theorem parent?_detach (doc : Document) (id other : NodeId) :
    (doc.detach id).parent? other = if other = id then none else doc.parent? other := by
  cases hparent : doc.parent? id with
  | none =>
    rw [detach_of_none hparent]
    split
    · next heq => rw [heq, hparent]
    · rfl
  | some parent =>
    rw [detach, hparent]
    dsimp only
    rw [parent?_modifyNode]
    · rw [parent?, getElem?_modifyNode, parent?]
      by_cases heq : other = id
      · rw [if_pos heq.symm, if_pos heq]
        cases doc.nodes[other]? with
        | none => rfl
        | some node => rfl
      · rw [if_neg fun h => heq h.symm, if_neg heq]
    · exact fun _ => rfl

/-- A node that is detached is taken out from among the children of its parent. -/
theorem children_detach {id : NodeId} (h : doc.parent? id = some parent) (other : NodeId) :
    (doc.detach id).children other
      = if other = parent then (doc.children other).filter (· != id) else doc.children other := by
  have hcut : (doc.modifyNode id fun node => { node with parent := none }).children other
      = doc.children other := children_modifyNode _ _ _ fun _ => rfl
  rw [detach, h]
  dsimp only
  rw [children_modifyChildren _ _ _ fun children => children.filter (· != id), hcut,
    size_modifyNode]
  by_cases heq : other = parent
  · by_cases hlt : other < doc.nodes.size
    · rw [if_pos ⟨heq, hlt⟩, if_pos heq]
    · rw [if_neg fun h => hlt h.2, if_pos heq, children_eq,
        Array.getElem?_eq_none (Nat.le_of_not_lt hlt)]
      rfl
  · rw [if_neg fun h => heq h.1, if_neg heq]

/-! ## Copies, one new node after the other

A copy is a run of new nodes, the first of them below the parent and each of the others below one of
the copies.  `Grows` forgets which branch was copied, so that an invariant has to be shown for a new
node alone. -/

/-- New nodes are made below `parent` and below each other. -/
inductive Grows (doc : Document) (parent : NodeId) : Document → Prop where
  | refl : Grows doc parent doc
  | push {now : Document} (h : Grows doc parent now) {above : NodeId}
    (hplace : above = parent ∨ doc.nodes.size ≤ above) (habove : above < now.nodes.size)
    (kind : NodeKind) : Grows doc parent (now.pushNode above kind).1

theorem Grows.size_le (h : Grows doc parent now) : doc.nodes.size ≤ now.nodes.size := by
  induction h with
  | refl => exact Nat.le_refl _
  | push h hplace habove kind ih =>
    rw [size_pushNode]
    exact Nat.le_succ_of_le ih

mutual

/-- What has grown goes on growing by a copy at one of its places. -/
theorem Grows.graft : ∀ (branch : Branch) {now : Document} {above : NodeId},
    Grows doc parent now → (above = parent ∨ doc.nodes.size ≤ above) → above < now.nodes.size →
    Grows doc parent (now.graft above branch).1 ∧
      now.nodes.size ≤ (now.graft above branch).1.nodes.size
  | ⟨kind, children⟩, now, above, h, hplace, habove => by
    have hsize : now.nodes.size < (now.pushNode above kind).1.nodes.size := by simp
    obtain ⟨hall, hgrown⟩ := Grows.graftAll children (h.push hplace habove kind)
      (.inr h.size_le) hsize
    rw [graft_fst]
    exact ⟨hall, Nat.le_trans (Nat.le_of_lt hsize) hgrown⟩

/-- To graft branches below a new node, or below the parent, adds nodes only there. -/
theorem Grows.graftAll : ∀ (branches : List Branch) {now : Document} {above : NodeId},
    Grows doc parent now → (above = parent ∨ doc.nodes.size ≤ above) → above < now.nodes.size →
    Grows doc parent (now.graftAll above branches) ∧
      now.nodes.size ≤ (now.graftAll above branches).nodes.size
  | [], _, _, h, _, _ => ⟨h, Nat.le_refl _⟩
  | child :: rest, now, above, h, hplace, habove => by
    obtain ⟨hgraft, hsize⟩ := Grows.graft child h hplace habove
    obtain ⟨hall, hgrown⟩ := Grows.graftAll rest hgraft hplace (Nat.lt_of_lt_of_le habove hsize)
    rw [Document.graftAll]
    exact ⟨hall, Nat.le_trans hsize hgrown⟩

end

/-- **A copy of a branch is made of new nodes.** -/
theorem graft_grows (hparent : parent < doc.nodes.size) (branch : Branch) :
    Grows doc parent (doc.graft parent branch).1 :=
  (Grows.graft branch .refl (.inl rfl) hparent).1

end Document
end Drawing
end Frontispiece
