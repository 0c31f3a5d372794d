import Frontispiece.Proofs.Drawing.Operation

/-!
# Parents and children

A document says twice how its nodes hang together: a node knows its parent, and the parent lists its
children.  Every operation but one changes both.  The exception is `clear`, which empties a list of
children and lets them keep their parent; what it took off stays loose until it is detached.

## What is here

* `History` — a run of operations from a root, with the nodes that are loose at its end.
* `Linked` — what runs keep true of parents and children, with a lemma for each operation.
* `History.links` — a node is in a list of children exactly when it has that parent and is not
  loose; lists of children share no nodes, and the two records agree exactly when nothing is loose.

The theorem is stated for a run together with the nodes that it leaves loose, and not just for a
document, because whether a node is loose is not seen from the document alone: its parent does not
list it, but neither does it say so anywhere.  Each operation is gone through once, with what it
does to the list of loose nodes, and the equivalence at the end says exactly what `clear` gets
wrong.
-/

set_option autoImplicit false

namespace Frontispiece
namespace Drawing

/-- The nodes that are loose after an operation: `clear` makes children loose, and `detach` takes
the parent away that a loose node has. -/
def Operation.loosen (doc : Document) (loose : List NodeId) : Operation → List NodeId
  | clear id => doc.children id ++ loose
  | detach id => loose.filter (· != id)
  | setAttr .. | removeAttr .. | appendElement .. | prependElement .. | appendText .. | graft .. =>
    loose

namespace Document

open Operation (loosen)

/-- A run of operations from a root, with the nodes that it leaves loose. -/
inductive History : Document → List NodeId → Prop where
  | withRoot (tag : String) : History (withRoot tag) []
  | step {doc : Document} {loose : List NodeId} (h : History doc loose) (op : Operation)
    (hop : op.Issued doc) : History (op.apply doc) (op.loosen doc loose)

variable {doc now : Document} {loose : List NodeId} {parent : NodeId}

theorem History.reachable (h : History doc loose) : doc.Reachable := by
  induction h with
  | withRoot tag => exact .withRoot tag
  | step h op hop ih => exact ih.apply hop

/-- Every reachable document has a history. -/
theorem Reachable.history (h : doc.Reachable) : ∃ loose, History doc loose := by
  induction h with
  | withRoot tag => exact ⟨_, .withRoot tag⟩
  | setAttr h id name value ih =>
    obtain ⟨loose, ih⟩ := ih
    exact ⟨_, ih.step (.setAttr id name value) trivial⟩
  | removeAttr h id name ih =>
    obtain ⟨loose, ih⟩ := ih
    exact ⟨_, ih.step (.removeAttr id name) trivial⟩
  | appendElement h hparent tag ih =>
    obtain ⟨loose, ih⟩ := ih
    exact ⟨_, ih.step (.appendElement _ tag) hparent⟩
  | prependElement h hparent tag ih =>
    obtain ⟨loose, ih⟩ := ih
    exact ⟨_, ih.step (.prependElement _ tag) hparent⟩
  | appendText h hparent content ih =>
    obtain ⟨loose, ih⟩ := ih
    exact ⟨_, ih.step (.appendText _ content) hparent⟩
  | clear h id ih =>
    obtain ⟨loose, ih⟩ := ih
    exact ⟨_, ih.step (.clear id) trivial⟩
  | detach h id ih =>
    obtain ⟨loose, ih⟩ := ih
    exact ⟨_, ih.step (.detach id) trivial⟩
  | graft h hparent hbranch ih =>
    obtain ⟨loose, ih⟩ := ih
    exact ⟨_, ih.step (.graft _ _) ⟨hparent, hbranch⟩⟩

/-! ## What operations keep

There are two records of one relation, so the invariant says where they agree and where they do not.
A loose node is one that still names a parent which lists it no more, and each lemma says what an
operation does to the list of loose nodes. -/

/-- Parents and lists of children agree but for loose nodes, which have a parent that does not list
them. -/
structure Linked (doc : Document) (loose : List NodeId) : Prop where
  mem_children_iff : ∀ child parent : NodeId,
    child ∈ doc.children parent ↔ doc.parent? child = some parent ∧ child ∉ loose
  nodup : ∀ parent : NodeId, (doc.children parent).Nodup
  root : doc.parent? root = none
  loose_parent : ∀ child ∈ loose, doc.parent? child ≠ none

namespace Linked

/-- Only parents and the order of children changed. -/
theorem of_perm (h : doc.Linked loose) (hparent : ∀ id, now.parent? id = doc.parent? id)
    (hchildren : ∀ id, (now.children id).Perm (doc.children id)) : now.Linked loose where
  mem_children_iff child parent := by
    rw [(hchildren parent).mem_iff, hparent]
    exact h.mem_children_iff child parent
  nodup parent := (hchildren parent).nodup_iff.2 (h.nodup parent)
  root := (hparent _).trans h.root
  loose_parent child hchild := by
    rw [hparent]
    exact h.loose_parent child hchild

theorem modifyAttrs (h : doc.Linked loose) (id : NodeId) (f : Fields String → Fields String) :
    (doc.modifyAttrs id f).Linked loose := by
  refine h.of_perm (fun other => parent?_modifyAttrs doc id other f) fun other => ?_
  rw [children_modifyAttrs]

/-- No list of children has the number of the next node. -/
theorem next_notMem (h : doc.Linked loose) (parent : NodeId) :
    doc.nodes.size ∉ doc.children parent := by
  intro hmem
  have hparent := ((h.mem_children_iff _ _).1 hmem).1
  exact absurd (lt_of_parent? hparent) (Nat.lt_irrefl _)

/-- The next node is not loose. -/
theorem next_notMem_loose (h : doc.Linked loose) : doc.nodes.size ∉ loose := by
  intro hmem
  obtain ⟨parent, hparent⟩ := Option.ne_none_iff_exists'.1 (h.loose_parent _ hmem)
  exact absurd (lt_of_parent? hparent) (Nat.lt_irrefl _)

/-- **A new node knows its parent, and its parent lists it.** -/
theorem pushNode (h : doc.Linked loose) (hparent : parent < doc.nodes.size) (kind : NodeKind) :
    (doc.pushNode parent kind).1.Linked loose where
  mem_children_iff child other := by
    rw [children_pushNode hparent, parent?_pushNode hparent]
    by_cases hnew : child = doc.nodes.size
    · subst hnew
      by_cases heq : other = parent
      · simp [heq, h.next_notMem_loose]
      · have hne : parent ≠ other := fun h => heq h.symm
        simp [heq, hne, h.next_notMem]
    · have hmem : child ∈ doc.children other ++ [doc.nodes.size] ↔ child ∈ doc.children other := by
        simp [hnew]
      rw [if_neg hnew, ← h.mem_children_iff child other]
      split
      · exact hmem
      · exact Iff.rfl
  nodup other := by
    rw [children_pushNode hparent]
    split
    · refine List.nodup_append.2 ⟨h.nodup other, by simp, ?_⟩
      intro child hchild last hlast heq
      rw [List.mem_singleton.1 hlast] at heq
      exact h.next_notMem other (heq ▸ hchild)
    · exact h.nodup other
  root := by
    have hfirst : Document.root ≠ doc.nodes.size := Nat.ne_of_lt (Nat.zero_lt_of_lt hparent)
    rw [parent?_pushNode hparent, if_neg hfirst]
    exact h.root
  loose_parent child hchild := by
    rw [parent?_pushNode hparent]
    split
    · exact Option.some_ne_none parent
    · exact h.loose_parent child hchild

theorem prependElement (h : doc.Linked loose) (hparent : parent < doc.nodes.size) (tag : String) :
    (doc.prependElement parent tag).1.Linked loose := by
  refine (h.pushNode hparent (.element tag [])).of_perm (fun id => ?_) fun id => ?_
  · rw [parent?_prependElement hparent, parent?_pushNode hparent]
  · rw [children_prependElement hparent, children_pushNode hparent]
    split
    · exact (List.perm_append_singleton _ _).symm
    · exact List.Perm.refl _

theorem grows (h : doc.Linked loose) (hgrows : Grows doc parent now) : now.Linked loose := by
  induction hgrows with
  | refl => exact h
  | push hgrows hplace habove kind ih => exact ih.pushNode habove kind

/-- **Children taken off by `clear` are loose.** -/
theorem clear (h : doc.Linked loose) (id : NodeId) :
    (doc.clear id).Linked (doc.children id ++ loose) where
  mem_children_iff child parent := by
    rw [children_clear, parent?_clear, List.mem_append]
    constructor
    · intro hmem
      have hne : parent ≠ id := by
        rintro rfl
        simp at hmem
      rw [if_neg hne] at hmem
      obtain ⟨hparent, hloose⟩ := (h.mem_children_iff child parent).1 hmem
      refine ⟨hparent, ?_⟩
      rintro (hcut | hold)
      · have hid := ((h.mem_children_iff child id).1 hcut).1
        exact hne (Option.some.inj (hparent.symm.trans hid))
      · exact hloose hold
    · rintro ⟨hparent, hloose⟩
      have hmem : child ∈ doc.children parent :=
        (h.mem_children_iff child parent).2 ⟨hparent, fun hold => hloose (.inr hold)⟩
      by_cases heq : parent = id
      · subst heq
        exact absurd (.inl hmem) hloose
      · rwa [if_neg heq]
  nodup parent := by
    rw [children_clear]
    split
    · exact List.nodup_nil
    · exact h.nodup parent
  root := by
    rw [parent?_clear]
    exact h.root
  loose_parent child hchild := by
    rw [parent?_clear]
    rcases List.mem_append.1 hchild with hcut | hold
    · rw [((h.mem_children_iff child id).1 hcut).1]
      exact Option.some_ne_none id
    · exact h.loose_parent child hold

/-- A node that is detached is loose no more. -/
theorem detach (h : doc.Linked loose) (id : NodeId) :
    (doc.detach id).Linked (loose.filter (· != id)) where
  mem_children_iff child parent := by
    have hmem : child ∈ (doc.detach id).children parent
        ↔ child ∈ doc.children parent ∧ child ≠ id := by
      cases hid : doc.parent? id with
      | none =>
        rw [detach_of_none hid]
        refine ⟨fun hmem => ⟨hmem, ?_⟩, And.left⟩
        rintro rfl
        rw [((h.mem_children_iff child parent).1 hmem).1] at hid
        cases hid
      | some above =>
        rw [children_detach hid]
        by_cases heq : parent = above
        · simp [heq]
        · rw [if_neg heq]
          refine ⟨fun hmem => ⟨hmem, ?_⟩, And.left⟩
          rintro rfl
          have hparent := ((h.mem_children_iff child parent).1 hmem).1
          exact heq (Option.some.inj (hparent.symm.trans hid))
    rw [hmem, h.mem_children_iff child parent, parent?_detach, List.mem_filter]
    by_cases heq : child = id
    · simp [heq]
    · simp [heq]
  nodup parent := by
    cases hid : doc.parent? id with
    | none =>
      rw [detach_of_none hid]
      exact h.nodup parent
    | some above =>
      rw [children_detach hid]
      split
      · exact (h.nodup parent).filter _
      · exact h.nodup parent
  root := by
    rw [parent?_detach]
    split
    · rfl
    · exact h.root
  loose_parent child hchild := by
    obtain ⟨hold, hne⟩ := List.mem_filter.1 hchild
    rw [parent?_detach, if_neg (by simpa using hne)]
    exact h.loose_parent child hold

theorem withRoot (tag : String) : (Document.withRoot tag).Linked [] where
  mem_children_iff child parent := by
    have hparent : (Document.withRoot tag).parent? child ≠ some parent := by
      rcases child with _ | child <;> simp [Document.withRoot, parent?]
    have hchild : child ∉ (Document.withRoot tag).children parent := by
      rcases parent with _ | parent <;> simp [Document.withRoot, children_eq]
    simp [hparent, hchild]
  nodup parent := by
    rcases parent with _ | parent <;> simp [Document.withRoot, children_eq]
  root := rfl
  loose_parent _ hchild := by cases hchild

/-- **One operation keeps the links**, up to what it makes loose. -/
theorem apply (h : doc.Linked loose) {op : Operation} (hop : op.Issued doc) :
    (op.apply doc).Linked (op.loosen doc loose) := by
  cases op with
  | setAttr id name value => exact h.modifyAttrs id _
  | removeAttr id name => exact h.modifyAttrs id _
  | appendElement parent tag => exact h.pushNode hop _
  | prependElement parent tag => exact h.prependElement hop tag
  | appendText parent content => exact h.pushNode hop _
  | clear id => exact h.clear id
  | detach id => exact h.detach id
  | graft parent branch => exact h.grows (graft_grows hop.1 branch)

/-- A node is in one list of children at most. -/
theorem parent_unique (h : doc.Linked loose) {child first second : NodeId}
    (hfirst : child ∈ doc.children first) (hsecond : child ∈ doc.children second) :
    first = second := by
  have hparent := ((h.mem_children_iff child first).1 hfirst).1
  rw [((h.mem_children_iff child second).1 hsecond).1] at hparent
  exact (Option.some.inj hparent).symm

theorem root_notMem (h : doc.Linked loose) (parent : NodeId) :
    Document.root ∉ doc.children parent := by
  intro hmem
  have hparent := ((h.mem_children_iff _ _).1 hmem).1
  rw [h.root] at hparent
  cases hparent

/-- Parents and lists of children agree exactly when nothing is loose. -/
theorem agree_iff (h : doc.Linked loose) :
    (∀ child parent : NodeId, child ∈ doc.children parent ↔ doc.parent? child = some parent)
      ↔ loose = [] := by
  constructor
  · intro hagree
    refine List.eq_nil_iff_forall_not_mem.2 fun child hchild => ?_
    obtain ⟨parent, hparent⟩ := Option.ne_none_iff_exists'.1 (h.loose_parent child hchild)
    have hmem := (hagree child parent).2 hparent
    exact ((h.mem_children_iff child parent).1 hmem).2 hchild
  · rintro rfl child parent
    simpa using h.mem_children_iff child parent

end Linked

/-! ## Runs

By induction on the run.  What follows is stated for the list of loose nodes that the run computes,
and the records agree exactly when it is empty: a run that clears a node with children leaves them
apart. -/

theorem History.linked (h : History doc loose) : doc.Linked loose := by
  induction h with
  | withRoot tag => exact .withRoot tag
  | step h op hop ih => exact ih.apply hop

/-- **Links of a document after any run of operations.**
* A node is in the list of children of another exactly when the other is its parent and the node is
  not loose.
* No node is twice in lists of children: not in one, and not in two.
* The root is in none.
* The two records agree everywhere exactly when nothing is loose. -/
theorem History.links (h : History doc loose) :
    (∀ child parent : NodeId,
      child ∈ doc.children parent ↔ doc.parent? child = some parent ∧ child ∉ loose) ∧
    (∀ parent : NodeId, (doc.children parent).Nodup) ∧
    (∀ child first second : NodeId,
      child ∈ doc.children first → child ∈ doc.children second → first = second) ∧
    (∀ parent : NodeId, root ∉ doc.children parent) ∧
    ((∀ child parent : NodeId, child ∈ doc.children parent ↔ doc.parent? child = some parent)
      ↔ loose = []) := by
  have hlinked := h.linked
  refine ⟨hlinked.mem_children_iff, hlinked.nodup, fun _ _ _ => hlinked.parent_unique,
    hlinked.root_notMem, hlinked.agree_iff⟩

/-- A root whose only child was taken off. -/
def clearedRoot : Document :=
  ((withRoot "svg").appendElement root "g").1.clear root

theorem clearedRoot_history : History clearedRoot [1] :=
  ((History.withRoot "svg").step (.appendElement root "g") Nat.zero_lt_one).step (.clear root)
    trivial

/-- The child of a cleared root keeps its parent, which lists it no more. -/
theorem clearedRoot_links : clearedRoot.parent? 1 = some root ∧ 1 ∉ clearedRoot.children root ∧
    ¬∀ child parent : NodeId,
      child ∈ clearedRoot.children parent ↔ clearedRoot.parent? child = some parent := by
  obtain ⟨hmem, -, -, -, hagree⟩ := clearedRoot_history.links
  refine ⟨rfl, fun hchild => ?_, fun h => ?_⟩
  · exact ((hmem 1 root).1 hchild).2 List.mem_cons_self
  · exact absurd (hagree.1 h) (by decide)

/-- **A run that clears does not keep the two records equal.** -/
theorem exists_history_not_agree : ∃ doc loose, History doc loose ∧
    ¬∀ child parent : NodeId, child ∈ doc.children parent ↔ doc.parent? child = some parent :=
  ⟨clearedRoot, [1], clearedRoot_history, fun h => by
    have hmem := (h 1 root).2 rfl
    cases hmem⟩

end Document
end Drawing
end Frontispiece
