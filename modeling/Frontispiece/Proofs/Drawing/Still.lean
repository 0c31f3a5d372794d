import Frontispiece.Proofs.Drawing.Descendants
import Frontispiece.Proofs.Drawing.Links
import Frontispiece.Proofs.Markup.Readable

/-!
# Documents without animations

Animations are switched off by detaching the elements that animate, one after the other, from a list
that is made before the first of them goes.  Elements of that list may lie in others, and are then
detached from what is cut off already.  What is left is the drawing without these elements and all
that is in them, and a style at its end.

## What is here

* `Tree.without`, `Tree.withLast` — a tree without the elements of some tags, and with one more
  child.
* `Cut` — a document from which nodes were detached; `Linked.cut` has it of any list of nodes.
* `Cut.tree_eq_of` — its trees are those with the same children left out; `Cut.tree_eq` has the
  children that are left out by their tags.
* `Reachable.tree_withoutAnimations`, `Reachable.tag_notMem_of_below` — what switching animations
  off leaves.

The elements that animate can stand anywhere, also in each other, and the program detaches them one
by one.  To show that the order does not matter, the document after some of them are gone is
described as the old one with a set of nodes left out of the lists of children.  Whether the set is
the one that it should be is then compared with the tree, where elements are left out by their tags.
-/

set_option autoImplicit false

namespace Frontispiece
namespace Markup
namespace Tree

mutual

/-- A tree without the elements below it that have one of some tags, and without what is in them. -/
def without (tags : List String) : Tree → Tree
  | .text content => .text content
  | .element tag attrs children => .element tag attrs (withoutIn tags children)

/-- Children without the elements of some tags, here or further below. -/
def withoutIn (tags : List String) : List Tree → List Tree
  | [] => []
  | child :: rest =>
    if child.tag?.any tags.contains then withoutIn tags rest
    else child.without tags :: withoutIn tags rest

end

/-- An element with one more child at its end. -/
def withLast : Tree → Tree → Tree
  | .text content, _ => .text content
  | .element tag attrs children, last => .element tag attrs (children ++ [last])

/-- Trees without elements of some tags: those trees are left out, and the others are searched. -/
theorem withoutIn_eq (tags : List String) (trees : List Tree) :
    withoutIn tags trees
      = (trees.filter fun tree => !tree.tag?.any tags.contains).map (without tags) := by
  induction trees with
  | nil => rw [withoutIn, List.filter_nil, List.map_nil]
  | cons child rest ih =>
    rw [withoutIn, ih, List.filter_cons]
    cases child.tag?.any tags.contains with
    | true => rfl
    | false => rfl

end Tree
end Markup

namespace Drawing

open Markup (Tree)

namespace Document

variable {doc now : Document} {loose ids : List NodeId} {id parent : NodeId}

/-! ## Nodes detached

The nodes are listed before the first of them is detached, so a node may be detached that lies below
one that is cut off already.  `Cut` is stated for the list as a whole; in which order it is gone
through does not matter then. -/

theorem kind?_detach (doc : Document) (id other : NodeId) :
    (doc.detach id).kind? other = doc.kind? other := by
  rw [detach]
  split
  · rfl
  · rw [kind?_modifyNode, kind?_modifyNode]
    · exact fun _ => rfl
    · exact fun _ => rfl

/-- The root is an element. -/
theorem WellFormed.kind?_root (h : doc.WellFormed) :
    ∃ tag attrs, doc.kind? Document.root = some (.element tag attrs) := by
  obtain ⟨node, hnode, helement⟩ := h.root
  rw [kind?, hnode]
  cases hkind : node.kind with
  | text content =>
    rw [hkind] at helement
    cases helement
  | element tag attrs => exact ⟨tag, attrs, congrArg some hkind⟩

/-- A node that is detached is in no list of children any more. -/
theorem Linked.children_detach (h : doc.Linked loose) (id parent : NodeId) :
    (doc.detach id).children parent = (doc.children parent).filter (· != id) := by
  have helsewhere : doc.parent? id ≠ some parent →
      (doc.children parent).filter (· != id) = doc.children parent := by
    intro hparent
    refine List.filter_eq_self.2 fun child hchild => ?_
    have hne : child ≠ id := by
      rintro rfl
      exact hparent ((h.mem_children_iff _ _).1 hchild).1
    simpa using hne
  cases hid : doc.parent? id with
  | none =>
    rw [detach_of_none hid, helsewhere (by simp [hid])]
  | some above =>
    rw [Document.children_detach hid]
    split
    · rfl
    · next hne =>
      rw [helsewhere fun hparent => hne (Option.some.inj (hparent.symm.trans hid))]

/-- A document from which nodes were detached. -/
structure Cut (doc : Document) (ids : List NodeId) (now : Document) : Prop where
  kind?_eq : ∀ id, now.kind? id = doc.kind? id
  children_eq : ∀ parent, now.children parent = (doc.children parent).filter fun id => id ∉ ids
  linked : ∃ loose, now.Linked loose
  wellFormed : now.WellFormed

/-- **Nodes are detached one after the other**, whatever the order. -/
theorem Linked.cut : ∀ (ids : List NodeId) {doc : Document} {loose : List NodeId},
    doc.Linked loose → doc.WellFormed → Cut doc ids (ids.foldl Document.detach doc)
  | [], doc, loose, h, hdoc => ⟨fun _ => rfl, fun _ => by simp, ⟨loose, h⟩, hdoc⟩
  | id :: rest, doc, loose, h, hdoc => by
    obtain ⟨hkind, hchildren, hlinked, hwell⟩ := Linked.cut rest (h.detach id) (hdoc.detach id)
    refine ⟨fun other => (hkind other).trans (kind?_detach doc id other), fun parent => ?_, hlinked,
      hwell⟩
    rw [List.foldl_cons, hchildren, h.children_detach, List.filter_filter]
    refine List.filter_congr fun child _ => ?_
    by_cases heq : child = id
    · simp [heq]
    · simp [heq]

theorem tag?_congr (h : now.kind? id = doc.kind? id) : now.tag? id = doc.tag? id := by
  rw [tag?, tag?, h]

/-- What is below a node after the cut was below it before, and is none of the nodes cut off. -/
theorem Cut.below (h : Cut doc ids now) {other : NodeId} (hbelow : now.Below id other) :
    doc.Below id other ∧ other ∉ ids := by
  have hstep : ∀ {parent child}, child ∈ now.children parent →
      child ∈ doc.children parent ∧ child ∉ ids := by
    intro parent child hchild
    rw [h.children_eq, List.mem_filter] at hchild
    simpa using hchild
  induction hbelow with
  | single hchild => exact ⟨.single (hstep hchild).1, (hstep hchild).2⟩
  | tail _ hchild ih => exact ⟨ih.1.tail (hstep hchild).1, (hstep hchild).2⟩

/-- A node and its tree have one tag. -/
theorem WellFormed.tag?_tree (h : doc.WellFormed) (hid : id < doc.nodes.size) :
    (doc.tree id).tag? = doc.tag? id := by
  obtain ⟨kind, hkind⟩ := exists_kind? hid
  rw [tag?, hkind]
  cases kind with
  | element tag attrs =>
    rw [h.tree_element hkind]
    rfl
  | text content =>
    rw [h.tree_text hkind]
    rfl

/-- **Cutting off nodes changes a tree below as leaving out children does**, when the nodes that are
cut off are the children that are left out.  By induction on the nodes that come after. -/
theorem Cut.tree_eq_of {f : Tree → Tree} (h : Cut doc ids now) (hdoc : doc.WellFormed)
    (keeps : String → Tree → Bool) (htext : ∀ content, f (.text content) = .text content)
    (helement : ∀ tag attrs children, f (.element tag attrs children)
      = .element tag attrs ((children.filter (keeps tag)).map f)) (id : Nat)
    (hid : id < doc.nodes.size)
    (hids : ∀ parent child tag, parent = id ∨ doc.Below id parent → doc.tag? parent = some tag →
      child ∈ doc.children parent → (child ∉ ids ↔ keeps tag (doc.tree child) = true)) :
    now.tree id = f (doc.tree id) := by
  obtain ⟨kind, hkind⟩ := exists_kind? hid
  have hnow : now.kind? id = some kind := (h.kind?_eq id).trans hkind
  cases kind with
  | text content => rw [h.wellFormed.tree_text hnow, hdoc.tree_text hkind, htext]
  | element tag attrs =>
    rw [h.wellFormed.tree_element hnow, hdoc.tree_element hkind, helement, h.children_eq,
      List.filter_map, List.map_map]
    have htag : doc.tag? id = some tag := by rw [tag?, hkind]
    have hkept : (doc.children id).filter (fun child => child ∉ ids)
        = (doc.children id).filter (keeps tag ∘ doc.tree) := by
      refine List.filter_congr fun child hchild => ?_
      rw [Bool.eq_iff_iff, decide_eq_true_iff]
      exact hids id child tag (.inl rfl) htag hchild
    rw [hkept]
    congr 1
    refine List.map_congr_left fun child hchild => ?_
    have hbelow := (List.mem_filter.1 hchild).1
    refine h.tree_eq_of hdoc keeps htext helement child (hdoc.children_after hbelow).2
      fun parent other tag hparent => hids parent other tag (.inr ?_)
    rcases hparent with rfl | hdeep
    · exact .single hbelow
    · exact .head hbelow hdeep
termination_by doc.nodes.size - id
decreasing_by
  have hafter := (hdoc.children_after hbelow).1
  omega

/-- **Cutting off the nodes of some tags takes them out of a tree**, and nothing else, when these
are all nodes of these tags below it. -/
theorem Cut.tree_eq {tags : List String} (h : Cut doc ids now) (hdoc : doc.WellFormed) (id : Nat)
    (hid : id < doc.nodes.size)
    (hids : ∀ other, doc.Below id other → (other ∈ ids ↔ (doc.tag? other).any tags.contains)) :
    now.tree id = (doc.tree id).without tags := by
  refine h.tree_eq_of hdoc (fun _ tree => !tree.tag?.any tags.contains) (fun _ => rfl)
    (fun tag attrs children => by rw [Tree.without, Tree.withoutIn_eq]) id hid
    fun parent child tag hparent _ hchild => ?_
  rw [hids child (below_of_mem_children hparent hchild),
    hdoc.tag?_tree (hdoc.children_after hchild).2, Bool.not_eq_true', Bool.eq_false_iff]

/-! ## A style at the end of the root

The style is an element with a text in it, both new.  Trees of nodes other than the root do not
change, because no other list of children does. -/

/-- A document with a style as the last child of its root. -/
def styled (doc : Document) (css : String) : Document :=
  ((doc.appendElement root "style").1.appendText doc.nodes.size css).1

theorem kind?_styled (doc : Document) (css : String) (id : NodeId) :
    (doc.styled css).kind? id = if id = doc.nodes.size + 1 then some (.text css)
      else if id = doc.nodes.size then some (.element "style" []) else doc.kind? id := by
  rw [styled, appendText, kind?_pushNode, size_appendElement, appendElement, kind?_pushNode]

/-- A stylesheet adds a `style` element and its text. -/
theorem tag?_styled (doc : Document) (css : String) (id : NodeId) :
    (doc.styled css).tag? id = if id = doc.nodes.size + 1 then none
      else if id = doc.nodes.size then some "style" else doc.tag? id := by
  rw [tag?, kind?_styled]
  by_cases htext : id = doc.nodes.size + 1
  · rw [if_pos htext, if_pos htext]
  · rw [if_neg htext, if_neg htext]
    by_cases hstyle : id = doc.nodes.size
    · rw [if_pos hstyle, if_pos hstyle]
    · rw [if_neg hstyle, if_neg hstyle, tag?]

/-- A stylesheet is the last child of the root. -/
theorem children_styled (hroot : root < doc.nodes.size) (css : String) (id : NodeId) :
    (doc.styled css).children id = if id = doc.nodes.size then [doc.nodes.size + 1]
      else if id = root then doc.children id ++ [doc.nodes.size] else doc.children id := by
  have hstyle : doc.nodes.size < (doc.appendElement root "style").1.nodes.size := by
    rw [size_appendElement]
    exact Nat.lt_succ_self _
  rw [styled, appendText, children_pushNode hstyle, size_appendElement, appendElement,
    children_pushNode hroot]
  by_cases heq : id = doc.nodes.size
  · have hnone : doc.children doc.nodes.size = [] := by simp [children_eq]
    rw [heq, if_pos rfl, if_pos rfl, if_neg (Nat.ne_of_gt hroot), hnone, List.nil_append]
  · rw [if_neg heq, if_neg heq]

theorem WellFormed.styled (h : doc.WellFormed) (css : String) : (doc.styled css).WellFormed := by
  have hstyle : (doc.appendElement Document.root "style").1.WellFormed :=
    h.pushNode h.root_lt List.nodup_nil
  refine hstyle.pushNode ?_ trivial
  rw [size_appendElement]
  exact Nat.lt_succ_self _

/-- The nodes that were there, other than the root, keep their trees. -/
theorem WellFormed.tree_styled_of_ne (h : doc.WellFormed) (css : String) {id : Nat}
    (hid : id < doc.nodes.size) (hne : Document.root < id) :
    (doc.styled css).tree id = doc.tree id := by
  refine congrArg Branch.tree (h.branch_congr (h.styled css) id hid fun other hother => ?_)
  have hplace : Document.root < other ∧ other < doc.nodes.size := by
    rcases hother with rfl | hbelow
    · exact ⟨hne, hid⟩
    · have hbounds := h.lt_of_below hbelow
      exact ⟨Nat.lt_trans hne hbounds.1, hbounds.2⟩
  have hold : other ≠ doc.nodes.size := Nat.ne_of_lt hplace.2
  have hnext : other ≠ doc.nodes.size + 1 := Nat.ne_of_lt (Nat.lt_succ_of_lt hplace.2)
  rw [kind?_styled, children_styled h.root_lt, if_neg hnext, if_neg hold, if_neg hold,
    if_neg (Nat.ne_of_gt hplace.1)]
  exact ⟨rfl, rfl⟩

/-- The new element has the stylesheet as its only text. -/
theorem WellFormed.tree_style (h : doc.WellFormed) (css : String) :
    (doc.styled css).tree doc.nodes.size = .element "style" [] [.text css] := by
  have hnext : doc.nodes.size ≠ doc.nodes.size + 1 := Nat.ne_of_lt (Nat.lt_succ_self _)
  have hstyle : (doc.styled css).kind? doc.nodes.size = some (.element "style" []) := by
    rw [kind?_styled, if_neg hnext, if_pos rfl]
  have htext : (doc.styled css).kind? (doc.nodes.size + 1) = some (.text css) := by
    rw [kind?_styled, if_pos rfl]
  have hwell := h.styled css
  rw [hwell.tree_element hstyle, children_styled h.root_lt, if_pos rfl, List.map_singleton,
    hwell.tree_text htext]

/-- **The tree of the root has the style as its last child.** -/
theorem WellFormed.tree_styled (h : doc.WellFormed) (css : String) :
    (doc.styled css).tree Document.root
      = (doc.tree Document.root).withLast (.element "style" [] [.text css]) := by
  have hroot : Document.root ≠ doc.nodes.size := Nat.ne_of_lt h.root_lt
  have hnext : Document.root ≠ doc.nodes.size + 1 := Nat.ne_of_lt (Nat.lt_succ_of_lt h.root_lt)
  obtain ⟨tag, attrs, hkind⟩ := h.kind?_root
  have hstyled : (doc.styled css).kind? Document.root = some (.element tag attrs) := by
    rw [kind?_styled, if_neg hnext, if_neg hroot, hkind]
  have hold : (doc.children Document.root).map (doc.styled css).tree
      = (doc.children Document.root).map doc.tree := by
    refine List.map_congr_left fun child hchild => ?_
    obtain ⟨hafter, hlt⟩ := h.children_after hchild
    exact h.tree_styled_of_ne css hlt hafter
  rw [(h.styled css).tree_element hstyled, h.tree_element hkind, Tree.withLast,
    children_styled h.root_lt, if_neg hroot, if_pos rfl, List.map_append, List.map_singleton,
    hold, h.tree_style]

/-- What is below the root is what was, the style, and its text. -/
theorem WellFormed.below_styled (h : doc.WellFormed) {css : String}
    (hbelow : (doc.styled css).Below Document.root id) :
    id = doc.nodes.size ∨ id = doc.nodes.size + 1 ∨ doc.Below Document.root id := by
  have hstep : ∀ {parent child}, child ∈ (doc.styled css).children parent →
      (parent = Document.root ∧ child = doc.nodes.size) ∨
      (parent = doc.nodes.size ∧ child = doc.nodes.size + 1) ∨ child ∈ doc.children parent := by
    intro parent child hchild
    rw [children_styled h.root_lt] at hchild
    split at hchild
    · next hstyle => exact .inr (.inl ⟨hstyle, List.mem_singleton.1 hchild⟩)
    split at hchild
    · next hroot =>
      rcases List.mem_append.1 hchild with hold | hnew
      · exact .inr (.inr hold)
      · exact .inl ⟨hroot, List.mem_singleton.1 hnew⟩
    · exact .inr (.inr hchild)
  induction hbelow with
  | single hchild =>
    rcases hstep hchild with ⟨-, hnew⟩ | ⟨hroot, -⟩ | hold
    · exact .inl hnew
    · exact absurd hroot (Nat.ne_of_lt h.root_lt)
    · exact .inr (.inr (.single hold))
  | @tail parent child _ hchild ih =>
    rcases hstep hchild with ⟨-, hnew⟩ | ⟨-, hnew⟩ | hold
    · exact .inl hnew
    · exact .inr (.inl hnew)
    · have hlt := Nat.lt_trans (h.children_after hold).1 (h.children_after hold).2
      rcases ih with hstyle | htext | hbelow
      · exact absurd hstyle (Nat.ne_of_lt hlt)
      · exact absurd htext (Nat.ne_of_lt (Nat.lt_succ_of_lt hlt))
      · exact .inr (.inr (hbelow.tail hold))

/-! ## Animations switched off

The nodes that are detached are found by their tags below the root, and in the tree the elements
that are left out are found by the same tags.  By the links between nodes these are the same
elements. -/

/-- The nodes that animate in a drawing. -/
def animated (doc : Document) : List NodeId :=
  (doc.descendants root).filter fun id => (doc.tag? id).any animationTags.contains

theorem withoutAnimations_eq (doc : Document) :
    doc.withoutAnimations = (doc.animated.foldl detach doc).styled stillStyle := rfl

theorem WellFormed.mem_animated (h : doc.WellFormed) (hbelow : doc.Below Document.root id) :
    id ∈ doc.animated ↔ (doc.tag? id).any animationTags.contains := by
  rw [animated, List.mem_filter, h.mem_descendants_iff h.root_lt]
  exact and_iff_right hbelow

/-- The nodes that animate are cut off. -/
theorem Reachable.cut_animated (h : doc.Reachable) :
    Cut doc doc.animated (doc.animated.foldl Document.detach doc) := by
  obtain ⟨loose, hhistory⟩ := h.history
  exact hhistory.linked.cut doc.animated h.wellFormed

/-- **Switching animations off takes the elements that animate out of the tree, with all that is in
them, and puts a style at its end.** -/
theorem Reachable.tree_withoutAnimations (h : doc.Reachable) :
    doc.withoutAnimations.tree root
      = ((doc.tree root).without animationTags).withLast
        (.element "style" [] [.text stillStyle]) := by
  have hcut := h.cut_animated
  have hwell := h.wellFormed
  rw [withoutAnimations_eq, hcut.wellFormed.tree_styled,
    hcut.tree_eq hwell root hwell.root_lt fun _ => hwell.mem_animated]

/-- The root stays the element that it is. -/
theorem Reachable.tag?_root_withoutAnimations (h : doc.Reachable) :
    doc.withoutAnimations.tag? root = doc.tag? root := by
  have hcut := h.cut_animated
  have hlt := hcut.wellFormed.root_lt
  rw [withoutAnimations_eq, tag?_styled, if_neg (Nat.ne_of_lt (Nat.lt_succ_of_lt hlt)),
    if_neg (Nat.ne_of_lt hlt), tag?_congr (hcut.kind?_eq root)]

/-- **No element that animates is left below the root.** -/
theorem Reachable.tag_notMem_of_below (h : doc.Reachable)
    (hbelow : doc.withoutAnimations.Below root id) {tag : String}
    (htag : doc.withoutAnimations.tag? id = some tag) : tag ∉ animationTags := by
  have hcut := h.cut_animated
  rw [withoutAnimations_eq] at hbelow htag
  rw [tag?_styled] at htag
  split at htag
  · cases htag
  split at htag
  · obtain rfl := Option.some.inj htag
    decide
  · next htext hstyle =>
    rcases hcut.wellFormed.below_styled hbelow with hnew | hnew | hold
    · exact absurd hnew hstyle
    · exact absurd hnew htext
    · obtain ⟨hbefore, hkept⟩ := hcut.below hold
      rw [tag?_congr (hcut.kind?_eq id)] at htag
      rw [h.wellFormed.mem_animated hbefore, htag] at hkept
      simpa using hkept

end Document
end Drawing
end Frontispiece
