import Frontispiece.Artifact.Svg
import Frontispiece.Proofs.Drawing.FromTree
import Frontispiece.Proofs.Drawing.Still

/-!
# Minifying in passes

A drawing can be minified in its document: the blank texts that do not show are listed and then
detached one after the other, and so are the style elements, when what they say has been collected.
Nodes of a list may lie in others of it, and are then detached from what is cut off already.  Here
these passes are written down and compared with the functions on trees.

## What is here

* `Document.dropBlankText`, `Document.mergeStyles`, `Document.minified` — the passes.
* `tree_dropBlankText`, `map_textContent_styles`, `tree_mergeStyles` — what each of them does to the
  tree of a document.
* `tree_minified` — **both passes do what the functions on trees do**.

Whether it makes a difference that nodes are listed before any of them is detached was worth asking:
a walk that went on while nodes are detached would miss some.  As it is, the list is fixed first.
The proofs follow that order: what is on the list is known from the tree, and detaching a list of
nodes is what `Cut` describes.
-/

set_option autoImplicit false

namespace Frontispiece
namespace Drawing
namespace Document

open Markup (Tree)
open Artifact (textTags isBlankText dropBlankTexts directText styleTexts styleTextsOf withoutStyles
  withoutStylesOf compactCss)

variable {doc now : Document} {loose ids : List NodeId} {id : NodeId}

/-! ## The passes

The program takes a document with numbered nodes and changes it in place: one pass detaches nodes,
the other makes one.  They are stated here as they run. -/

/-- Whether a node is a blank text, and not in an element in which it shows. -/
def isHiddenBlank (doc : Document) (id : NodeId) : Bool :=
  match doc.kind? id with
  | some (.text content) =>
    Text.allBlank content.toList && !((doc.parent? id).bind doc.tag?).any textTags.contains
  | _ => false

/-- The blank texts of a drawing that do not show. -/
def hiddenBlanks (doc : Document) : List NodeId :=
  (doc.descendants root).filter doc.isHiddenBlank

/-- The document without blank texts that do not show. -/
def dropBlankText (doc : Document) : Document :=
  doc.hiddenBlanks.foldl detach doc

/-- The style elements among some nodes. -/
def stylesAmong (doc : Document) (ids : List NodeId) : List NodeId :=
  ids.filter fun id => doc.tag? id == some "style"

/-- The document with its style elements merged into one at the end, if they hold anything. -/
def mergeStyles (debug : Bool) (doc : Document) : Document :=
  match doc.stylesAmong (doc.descendants root) with
  | [] => doc
  | styles =>
    let combined := Text.join ['\n'] (styles.map fun id => (doc.textContent id).toList)
    let css := if debug then Text.trim combined else compactCss combined
    let doc := styles.foldl detach doc
    if css.isEmpty then doc else doc.styled (String.ofList css)

/-- The minified document. -/
def minified (debug : Bool) (doc : Document) : Document :=
  doc.dropBlankText.mergeStyles debug

/-! ## Blank texts

Which nodes go is decided before any of them does, by one walk.  Detaching a node changes the
children of its parent and no other list, so the order of detaching plays no part. -/

/-- Whether a node is a blank text is read from the node as from its tree. -/
theorem WellFormed.isBlankText_tree (h : doc.WellFormed) (hid : id < doc.nodes.size) :
    isBlankText (doc.tree id) = match doc.kind? id with
      | some (.text content) => Text.allBlank content.toList
      | _ => false := by
  obtain ⟨kind, hkind⟩ := exists_kind? hid
  rw [hkind]
  cases kind with
  | element tag attrs => rw [h.tree_element hkind, isBlankText]
  | text content => rw [h.tree_text hkind, isBlankText]

/-- Blank texts are filtered out, and what is left is gone through. -/
theorem dropBlankTexts_eq (shown : Bool) (trees : List Tree) : dropBlankTexts shown trees
    = (trees.filter fun tree => !(!shown && isBlankText tree)).map Artifact.dropBlankText := by
  induction trees with
  | nil => rfl
  | cons child rest ih =>
    rw [dropBlankTexts, ih, List.filter_cons]
    cases !shown && isBlankText child with
    | true => rfl
    | false => rfl

/-- **The first pass leaves out blank texts**, each by the element that it stands directly in. -/
theorem Linked.tree_dropBlankText (h : doc.Linked loose) (hdoc : doc.WellFormed) :
    doc.dropBlankText.tree Document.root = Artifact.dropBlankText (doc.tree Document.root) := by
  have hcut := h.cut doc.hiddenBlanks hdoc
  refine hcut.tree_eq_of hdoc (fun tag tree => !(!textTags.contains tag && isBlankText tree))
    (fun _ => rfl) (fun tag attrs children => ?_) Document.root hdoc.root_lt
    fun parent child tag hparent htag hchild => ?_
  · rw [Artifact.dropBlankText, dropBlankTexts_eq]
  · have hbelow := below_of_mem_children hparent hchild
    have habove : doc.parent? child = some parent := ((h.mem_children_iff _ _).1 hchild).1
    rw [hiddenBlanks, List.mem_filter, hdoc.mem_descendants_iff hdoc.root_lt, and_iff_right hbelow,
      isHiddenBlank, hdoc.isBlankText_tree (hdoc.children_after hchild).2, habove, Option.bind_some,
      htag]
    cases doc.kind? child with
    | none => simp
    | some kind =>
      cases kind with
      | element tag attrs => simp
      | text content =>
        rw [Option.any_some, Bool.and_comm, Bool.not_eq_true', Bool.not_eq_true]

theorem Linked.dropBlankText (h : doc.Linked loose) (hdoc : doc.WellFormed) :
    ∃ loose, doc.dropBlankText.Linked loose :=
  (h.cut doc.hiddenBlanks hdoc).linked

theorem TextsBare.dropBlankText (h : doc.TextsBare) (hlinked : doc.Linked loose)
    (hdoc : doc.WellFormed) : doc.dropBlankText.TextsBare := by
  have hcut := hlinked.cut doc.hiddenBlanks hdoc
  intro id content hkind
  rw [Document.dropBlankText, hcut.kind?_eq] at hkind
  rw [Document.dropBlankText, hcut.children_eq, h id content hkind, List.filter_nil]

/-! ## Styles

The pass over styles detaches all of them and makes a new one at the end, if there is something to
be said in it.  Seen as trees, that is a filter and one more child. -/

/-- Texts that are put together with nothing between them. -/
theorem toList_intercalate_empty (texts : List String) :
    ("".intercalate texts).toList = texts.flatMap String.toList := by
  induction texts with
  | nil => rfl
  | cons first rest ih =>
    cases rest with
    | nil => rw [String.intercalate_singleton, List.flatMap_singleton]
    | cons second rest =>
      rw [String.intercalate_cons_cons, String.toList_append, String.toList_append, ih,
        String.toList_empty, List.append_nil]
      rfl

/-- The texts directly below a node are those of its tree. -/
theorem toList_textContent (hdoc : doc.WellFormed) (id : NodeId) : (doc.textContent id).toList
    = (directText ((doc.children id).map doc.tree)).toList := by
  have hlt : ∀ child ∈ doc.children id, child < doc.nodes.size := fun child hchild =>
    (hdoc.children_after hchild).2
  rw [textContent, toList_intercalate_empty]
  generalize doc.children id = children at hlt
  induction children with
  | nil => rfl
  | cons child rest ih =>
    obtain ⟨hchild, hrest⟩ := List.forall_mem_cons.1 hlt
    obtain ⟨kind, hkind⟩ := exists_kind? hchild
    rw [List.filterMap_cons, List.map_cons, hkind]
    cases kind with
    | element tag attrs =>
      rw [hdoc.tree_element hkind, directText, ← ih hrest]
    | text content =>
      rw [hdoc.tree_text hkind, directText, String.toList_append, ← ih hrest, List.flatMap_cons]

theorem styleTextsOf_eq (trees : List Tree) : styleTextsOf trees = trees.flatMap styleTexts := by
  induction trees with
  | nil => rfl
  | cons child rest ih => rw [styleTextsOf, ih, List.flatMap_cons]

/-- **The styles are found in the order of the tree.**  By induction on the nodes that come after. -/
theorem map_textContent_styles (hdoc : doc.WellFormed) (hbare : doc.TextsBare) (id : Nat)
    (hid : id < doc.nodes.size) :
    (doc.stylesAmong (doc.descendants id)).map (fun id => (doc.textContent id).toList)
      = (styleTextsOf ((doc.children id).map doc.tree)).map String.toList := by
  rw [hdoc.descendants_eq hid, stylesAmong, List.filter_flatMap, List.map_flatMap, styleTextsOf_eq,
    List.flatMap_map, List.map_flatMap]
  refine List.flatMap_congr fun child hchild => ?_
  obtain ⟨hafter, hlt⟩ := hdoc.children_after hchild
  have hinside := map_textContent_styles hdoc hbare child hlt
  obtain ⟨kind, hkind⟩ := exists_kind? hlt
  cases kind with
  | text content =>
    have htag : doc.tag? child = none := by rw [tag?, hkind]
    rw [hdoc.descendants_eq hlt, hbare child content hkind, hdoc.tree_text hkind,
      List.filter_cons_of_neg (by simp [htag])]
    rfl
  | element tag attrs =>
    have htag : doc.tag? child = some tag := by rw [tag?, hkind]
    rw [hdoc.tree_element hkind, styleTexts, List.map_append, ← hinside, stylesAmong,
      List.filter_cons, htag]
    by_cases hstyle : tag = "style"
    · rw [if_pos (by simpa using hstyle), if_pos (by simpa using hstyle), List.map_cons,
        toList_textContent hdoc]
      rfl
    · rw [if_neg (by simpa using hstyle), if_neg (by simpa using hstyle)]
      rfl
termination_by doc.nodes.size - id

mutual

theorem withoutStyles_eq : ∀ tree : Tree, withoutStyles tree = tree.without ["style"]
  | .text _ => rfl
  | .element tag attrs children => by
    rw [withoutStyles, Tree.without, withoutStylesOf_eq children]

theorem withoutStylesOf_eq : ∀ trees : List Tree, withoutStylesOf trees = Tree.withoutIn ["style"] trees
  | [] => rfl
  | child :: rest => by
    have htag : child.tag?.any ["style"].contains = (child.tag? == some "style") := by
      cases child.tag? with
      | none => rfl
      | some tag => simp [Bool.beq_eq_decide_eq]
    rw [withoutStylesOf, Tree.withoutIn, withoutStyles_eq child, withoutStylesOf_eq rest, htag]

end

/-- **The second pass merges the styles.** -/
theorem tree_mergeStyles (debug : Bool) (h : doc.Linked loose) (hdoc : doc.WellFormed)
    (hbare : doc.TextsBare) :
    (doc.mergeStyles debug).tree root = Artifact.mergeStyles debug (doc.tree root) := by
  obtain ⟨tag, attrs, hkind⟩ := hdoc.kind?_root
  have htexts := map_textContent_styles hdoc hbare root hdoc.root_lt
  have hcut := h.cut (doc.stylesAmong (doc.descendants root)) hdoc
  have htree : _ = (doc.tree root).without ["style"] :=
    hcut.tree_eq hdoc root hdoc.root_lt fun other hbelow => by
    rw [stylesAmong, List.mem_filter, hdoc.mem_descendants_iff hdoc.root_lt, and_iff_right hbelow]
    cases doc.tag? other with
    | none => simp
    | some tag => simp
  rw [← withoutStyles_eq, hdoc.tree_element hkind, withoutStyles] at htree
  rw [mergeStyles, hdoc.tree_element hkind, Artifact.mergeStyles]
  cases hstyles : doc.stylesAmong (doc.descendants root) with
  | nil =>
    rw [hstyles] at htexts
    rw [List.map_eq_nil_iff.1 htexts.symm]
    exact hdoc.tree_element hkind
  | cons first rest =>
    rw [hstyles] at htexts htree hcut
    obtain ⟨text, texts, htext⟩ : ∃ text texts,
        styleTextsOf ((doc.children root).map doc.tree) = text :: texts := by
      refine List.exists_cons_of_ne_nil fun hnone => ?_
      rw [hnone] at htexts
      cases htexts
    rw [htext] at htexts ⊢
    dsimp only
    rw [htexts]
    generalize (if debug = true then _ else _ : List Char) = css
    split
    · exact htree
    · rw [hcut.wellFormed.tree_styled, htree, Tree.withLast]

/-- **Both passes do what the functions on trees do.** -/
theorem tree_minified (debug : Bool) (h : doc.Linked loose) (hdoc : doc.WellFormed)
    (hbare : doc.TextsBare) : (doc.minified debug).tree root
      = Artifact.mergeStyles debug (Artifact.dropBlankText (doc.tree root)) := by
  obtain ⟨loose', hlinked⟩ := h.dropBlankText hdoc
  rw [minified, tree_mergeStyles debug hlinked (h.cut doc.hiddenBlanks hdoc).wellFormed
    (hbare.dropBlankText h hdoc), h.tree_dropBlankText hdoc]

end Document
end Drawing
end Frontispiece
