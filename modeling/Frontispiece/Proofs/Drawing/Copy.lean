import Frontispiece.Proofs.Drawing.FromTree

/-!
# Copies of another document

A drawing that is imported is read into a document of its own, and what is below its root is copied
below a node of the document at hand.  Both documents number their nodes, so a copy has another
number than what it is a copy of.  It is told by its branch.

## What is here

* `Branch.kinds`, `Document.kinds` — the nodes of branches and of documents, in the order of their
  making.
* `kinds_graftAll`, `kinds_ofTree` — copying makes the nodes of the branches and no others.
* `Appends` — copies of what is below the root of another document became the last children of a
  node, and nothing else happened.
* `appends_graftAll` — this is what grafting the children of a tree does.

The numbers of nodes are the one thing that a copy changes.  That makes it awkward to say that
nothing else has changed: it is said by comparing branches, and lists of kinds in the order of
making, neither of which has a number in it.
-/

set_option autoImplicit false

namespace Frontispiece
namespace Drawing

open Markup (Tree Readable)

/-! ## Nodes in the order of their making

What was copied cannot be told from numbers, but the nodes of a document come in the order in which
they were made, and copying goes through a branch in that order too.  So the list of kinds after a
copy is the list before it with that of the branch behind it. -/

namespace Branch

mutual

/-- The nodes of a branch, each before those below it. -/
def kinds : Branch → List NodeKind
  | ⟨kind, children⟩ => kind :: kindsAll children

/-- The nodes of branches, one branch after the other. -/
def kindsAll : List Branch → List NodeKind
  | [] => []
  | child :: rest => child.kinds ++ kindsAll rest

end

end Branch

namespace Document

variable {doc now : Document} {parent target : NodeId}

/-- The nodes of a document in the order of their making. -/
def kinds (doc : Document) : List NodeKind :=
  doc.nodes.toList.map Node.kind

theorem getElem?_kinds (doc : Document) (id : NodeId) : doc.kinds[id]? = doc.kind? id := by
  simp [kinds, kind?]

theorem length_kinds (doc : Document) : doc.kinds.length = doc.nodes.size := by
  simp [kinds]

/-- A new node comes last. -/
theorem kinds_pushNode (doc : Document) (parent : NodeId) (kind : NodeKind) :
    (doc.pushNode parent kind).1.kinds = doc.kinds ++ [kind] := by
  apply List.ext_getElem?
  intro id
  rw [getElem?_kinds, kind?_pushNode]
  rcases Nat.lt_trichotomy id doc.nodes.size with hlt | rfl | hgt
  · rw [if_neg (Nat.ne_of_lt hlt), List.getElem?_append_left (by rwa [length_kinds]),
      getElem?_kinds]
  · simp [length_kinds]
  · have hnone : doc.kind? id = none := by
      rw [kind?, Array.getElem?_eq_none (Nat.le_of_lt hgt), Option.map_none]
    have hlength : (doc.kinds ++ [kind]).length ≤ id := by
      simp [length_kinds]
      omega
    rw [if_neg (Nat.ne_of_gt hgt), hnone, List.getElem?_eq_none hlength]

mutual

/-- A copy of a branch makes its nodes. -/
theorem kinds_graft : ∀ (branch : Branch) (doc : Document) (parent : NodeId),
    (doc.graft parent branch).1.kinds = doc.kinds ++ branch.kinds
  | ⟨kind, children⟩, doc, parent => by
    rw [graft_fst, kinds_graftAll children, kinds_pushNode, Branch.kinds, List.append_assoc]
    rfl

/-- **Copies of branches make their nodes and no others.** -/
theorem kinds_graftAll : ∀ (branches : List Branch) (doc : Document) (parent : NodeId),
    (doc.graftAll parent branches).kinds = doc.kinds ++ Branch.kindsAll branches
  | [], doc, parent => by simp [graftAll, Branch.kindsAll]
  | child :: rest, doc, parent => by
    rw [graftAll, kinds_graftAll rest, kinds_graft child, Branch.kindsAll, List.append_assoc]

end

/-- The document of a tree has the nodes of its branch, first the root. -/
theorem kinds_ofTree (tree : Tree) : (ofTree tree).kinds = (Branch.ofTree tree).kinds := by
  rw [ofTree]
  split
  · next kind children heq =>
    rw [heq, kinds_graftAll, Branch.kinds]
    rfl

/-- New nodes do not change the parents of the old ones. -/
theorem Grows.parent?_eq (h : Grows doc parent now) {id : NodeId} (hid : id < doc.nodes.size) :
    now.parent? id = doc.parent? id := by
  induction h with
  | refl => rfl
  | push h hplace habove kind ih =>
    rw [parent?_pushNode habove, if_neg (Nat.ne_of_lt (Nat.lt_of_lt_of_le hid h.size_le)), ih]

/-! ## What is copied

The copies are the last children of their parent, and the other nodes are what they were.  `Appends`
has this in terms of branches and of written markup, in which the numbers of either document do not
come up. -/

/-- The first number bounds the numbers at which branches are found. -/
theorem HoldsAll.first_le {first : NodeId} : ∀ {ids : List NodeId} {branches : List Branch},
    doc.HoldsAll first ids branches → ∀ id ∈ ids, first ≤ id
  | [], _, _ => nofun
  | id :: ids, ⟨_, _⟩ :: _, ⟨hone, hrest⟩ => fun other hother => by
    rcases List.mem_cons.1 hother with rfl | hin
    · exact hone.1
    · exact hrest.first_le other hin

/-- Copies of what is below the root of `imported` became the last children of a node, and nothing
else happened. -/
structure Appends (doc : Document) (target : NodeId) (imported now : Document) : Prop where
  /-- The new nodes are those of the other document in their order, but for its root. -/
  kinds : now.kinds = doc.kinds ++ imported.kinds.tail
  /-- The copies stand behind the children that the node had, and are written like what they are
  copies of. -/
  copies : ∃ new, now.children target = doc.children target ++ new ∧
    (∀ id ∈ new, doc.nodes.size ≤ id ∧ now.parent? id = some target) ∧
    new.map now.branch = (imported.children root).map imported.branch ∧
    ∀ pretty, new.map (fun id => (now.tree id).render pretty)
      = (imported.children root).map fun id => (imported.tree id).render pretty
  /-- Nodes that were there are what they were. -/
  kept : ∀ id < doc.nodes.size, now.kind? id = doc.kind? id ∧ now.parent? id = doc.parent? id ∧
    (id ≠ target → now.children id = doc.children id)

/-- What is written of nodes depends on their branches only. -/
theorem map_render_of_branches {source : Document} {ids others : List NodeId}
    (h : ids.map doc.branch = others.map source.branch) (pretty : Bool) :
    ids.map (fun id => (doc.tree id).render pretty)
      = others.map fun id => (source.tree id).render pretty := by
  have hwritten := congrArg (List.map fun branch => (Branch.tree branch).render pretty) h
  rwa [List.map_map, List.map_map] at hwritten

/-- **Grafting the children of a tree appends copies of them, and nothing else.** -/
theorem appends_graftAll (hdoc : doc.Reachable) (htarget : target < doc.nodes.size) {tag : String}
    {attrs : Fields String} {children : List Tree}
    (hread : (Tree.element tag attrs children).Each Readable) :
    doc.Appends target (ofTree (.element tag attrs children))
      (doc.graftAll target (Branch.ofTrees children)) := by
  have hgrows := graftAll_grows htarget (Branch.ofTrees children)
  obtain ⟨loose, hhistory⟩ := hdoc.history
  have hlinked := hhistory.linked.grows hgrows
  have hwell := (WellFormed.graftAll _ hdoc.wellFormed target htarget
    (Branch.ofTrees_distinct hread.2)).1
  obtain ⟨new, hnew, hholds⟩ := graftAll_holds (Branch.ofTrees children) htarget
  obtain ⟨first, himported⟩ := ofTree_holds (.element tag attrs children)
  have hbranches : new.map (doc.graftAll target (Branch.ofTrees children)).branch
      = ((ofTree (.element tag attrs children)).children root).map
        (ofTree (.element tag attrs children)).branch := by
    rw [hwell.branches_of_holdsAll hholds,
      (wellFormed_ofTree hread).branches_of_holdsAll himported]
    rfl
  refine ⟨?_, ⟨new, hnew, fun id hid => ⟨hholds.first_le id hid, ?_⟩, hbranches,
    map_render_of_branches hbranches⟩, fun id hid => ⟨hgrows.kind?_eq hid, hgrows.parent?_eq hid,
    fun hne => children_of_getElem? ((Changes.grows htarget hgrows).1.same id hid hne)⟩⟩
  · rw [kinds_graftAll, kinds_ofTree]
    rfl
  · have hchild : id ∈ (doc.graftAll target (Branch.ofTrees children)).children target := by
      rw [hnew]
      exact List.mem_append_right _ hid
    exact ((hlinked.mem_children_iff id target).1 hchild).1

end Document
end Drawing
end Frontispiece
