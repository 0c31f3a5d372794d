import Frontispiece.Proofs.Drawing.Document
import Frontispiece.Proofs.Markup.RoundTrip

/-!
# Reading a drawing back

A document is written as the tree of its root.  These are the names that it has to have for that
tree to be read back, and the round trip for every document that operations make.

## What is here

* `Document.Named` — the elements of a document and their attributes have names.
* `WellFormed.tree_named` — then so has every tree that is written.
* `Reachable.parse_render` — reading undoes writing.

All that is hard about the round trip is done for trees.  What is left is to get from documents to
trees: the tree of a node has the tags and attributes of the nodes below it, and the walk that makes
it does not run out of fuel.  Texts that were put below a text are in the document but not in the
tree, since a text is written without them.
-/

set_option autoImplicit false

namespace Frontispiece
namespace Drawing
open Markup (Tree isName)

/-- Whether the tag of an element and the names of its attributes are names. -/
def NodeKind.isNamed : NodeKind → Bool
  | .element tag attrs => isName tag && attrs.all fun entry => isName entry.1
  | .text _ => true

namespace Document

variable {doc : Document}

/-! ## Names

The names that operations are given are written as they are, so a document whose names are none
cannot be read back.  What is asked for is what XML calls a name, of every tag and every attribute.
-/

/-- The tags of elements and the names of their attributes are names. -/
def Named (doc : Document) : Prop :=
  ∀ node ∈ doc.nodes, node.kind.isNamed = true

instance (doc : Document) : Decidable doc.Named :=
  inferInstanceAs (Decidable (∀ node ∈ doc.nodes, node.kind.isNamed = true))

theorem Named.element (h : doc.Named) {id : NodeId} {tag : String} {attrs : Fields String}
    (hkind : doc.kind? id = some (.element tag attrs)) :
    isName tag = true ∧ ∀ entry ∈ attrs, isName entry.1 = true := by
  obtain ⟨node, hnode, hnodeKind⟩ := Option.map_eq_some_iff.1 hkind
  have hnamed : node.kind.isNamed = true := h node (Array.mem_of_getElem? hnode)
  rwa [hnodeKind, NodeKind.isNamed, Bool.and_eq_true, List.all_eq_true] at hnamed

/-- A tree is named when its parts are. -/
theorem allNamed_iff : ∀ {trees : List Tree},
    Tree.AllNamed trees ↔ ∀ tree ∈ trees, tree.Named := by
  intro trees
  induction trees with
  | nil => simp [Tree.AllNamed]
  | cons child rest ih => simp [Tree.AllNamed, ih]

/-- No attribute of an element comes twice. -/
theorem WellFormed.attrs_nodup (h : doc.WellFormed) {id : NodeId} {tag : String}
    {attrs : Fields String} (hkind : doc.kind? id = some (.element tag attrs)) :
    attrs.keys.Nodup := by
  obtain ⟨node, hnode, hnodeKind⟩ := Option.map_eq_some_iff.1 hkind
  have hdistinct : node.kind.Distinct := (h.fits id node hnode).distinct
  rw [hnodeKind] at hdistinct
  exact hdistinct

/-- **The trees of a named document are named**, by induction on the nodes that come after. -/
theorem WellFormed.tree_named (h : doc.WellFormed) (hnamed : doc.Named) (id : Nat)
    (hid : id < doc.nodes.size) : (doc.tree id).Named := by
  obtain ⟨kind, hkind⟩ := exists_kind? hid
  cases kind with
  | text content =>
    rw [h.tree_text hkind]
    exact trivial
  | element tag attrs =>
    obtain ⟨htag, hattrs⟩ := hnamed.element hkind
    rw [h.tree_element hkind]
    refine ⟨htag, hattrs, h.attrs_nodup hkind, allNamed_iff.2 fun tree htree => ?_⟩
    obtain ⟨child, hchild, rfl⟩ := List.mem_map.1 htree
    obtain ⟨hafter, hlt⟩ := h.children_after hchild
    exact h.tree_named hnamed child hlt
termination_by doc.nodes.size - id

/-- The tree of the root is an element. -/
theorem WellFormed.isElement_root (h : doc.WellFormed) :
    (doc.tree Document.root).isElement = true := by
  obtain ⟨node, hnode, helement⟩ := h.root
  have hkind : doc.kind? Document.root = some node.kind := by rw [kind?, hnode, Option.map_some]
  cases hnodeKind : node.kind with
  | text content =>
    rw [hnodeKind] at helement
    cases helement
  | element tag attrs =>
    rw [h.tree_element (hkind.trans (congrArg some hnodeKind))]
    rfl

/-! ## The round trip

The document is written as a tree, and the tree is read back up to texts that touch each other.  All
that is left to be done is to show that the tree of a named document is named. -/

/-- **Reading undoes writing.**  For a document that operations made, with names for tags and
attributes and anything for values and texts:

1. what `render` writes is read back without an error, as the tree of the root with texts that stand
   side by side made one and empty ones left out;
2. the tree of an element has its tag, its attributes with their values in order, and the trees of
   its children in order;
3. the tree of a text is the text. -/
theorem Reachable.parse_render (h : doc.Reachable) (hnamed : doc.Named) :
    Markup.parse (doc.render false).toList = .ok (doc.tree root).normal ∧
      (∀ (id : NodeId) (tag : String) (attrs : Fields String),
        doc.kind? id = some (.element tag attrs) →
        doc.tree id = .element tag attrs ((doc.children id).map doc.tree)) ∧
      (∀ (id : NodeId) (content : String),
        doc.kind? id = some (.text content) → doc.tree id = .text content) := by
  have hwell : doc.WellFormed := h.wellFormed
  refine ⟨?_, fun id tag attrs => hwell.tree_element, fun id content => hwell.tree_text⟩
  have htree : (doc.tree root).Named := hwell.tree_named hnamed root hwell.root_lt
  rw [render, Tree.render_eq, String.toList_ofList]
  exact Markup.parse_chars hwell.isElement_root htree

/-- A drawing with an attribute and two texts that look like markup. -/
def sample : Document :=
  let doc := (withRoot "svg").setAttr root "id" "a\"<&>'&lt;"
  let (doc, group) := doc.appendElement root "g"
  let (doc, _) := doc.appendText group "</g><!-- "
  let (doc, _) := doc.appendText group "&amp;]]>"
  (doc.prependElement root "title").1

/-- The sample is read back, with one text for the two. -/
theorem parse_render_sample : sample.Reachable ∧ sample.Named ∧
    Markup.parse (sample.render false).toList = .ok (.element "svg" [("id", "a\"<&>'&lt;")]
      [.element "title" [] [], .element "g" [] [.text "</g><!-- &amp;]]>"]]) := by
  have hroot : ((withRoot "svg").setAttr root "id" "a\"<&>'&lt;").Reachable :=
    (Reachable.withRoot "svg").setAttr root "id" _
  have hgroup := @Reachable.appendElement _ hroot root (by decide) "g"
  have hfirst := @Reachable.appendText _ hgroup 1 (by decide) "</g><!-- "
  have hsecond := @Reachable.appendText _ hfirst 1 (by decide) "&amp;]]>"
  have hsample : sample.Reachable := @Reachable.prependElement _ hsecond root (by decide) "title"
  have hnamed : sample.Named := by with_unfolding_all decide
  have htree : (sample.tree root).normal = .element "svg" [("id", "a\"<&>'&lt;")]
      [.element "title" [] [], .element "g" [] [.text "</g><!-- &amp;]]>"]] := by cbv
  exact ⟨hsample, hnamed, (hsample.parse_render hnamed).1.trans (congrArg Except.ok htree)⟩

end Document
end Drawing
end Frontispiece
