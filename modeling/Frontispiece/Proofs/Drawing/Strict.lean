import Frontispiece.Proofs.Drawing.Frame

/-!
# Operations that ask for their nodes

A document gives an answer for the number of no node: it has no children, and changing it changes
nothing.  An array does not, and using a number that is out of range ends the program.  The
operations here are those of a document with that difference: `none` stands for the access out of
range.

## What is here

* `Strict.modifyNode`, `Strict.kind` — the two ways of getting at a node, on which all others rest.
* `Strict.setAttr`, …, `Strict.describe` — the operations, each with the lemma that it does what
  the operation of the document does when its node is there.
* `Strict.graft` — a copy out of another document, with numbers of both.
* `Holds` — a branch is found at a node of a document.  `graft_of_holds` copies it, and
  `graftAll_holds` says that what was copied is found.

That no access misses is a statement about the program and not about what it computes, so the
program is written down once more, with accesses that can miss, and shown to compute the same.  The
second version is as close to the first as possible; only the two ways of getting at a node are
different.  Each lemma has the hypothesis that the node is there, and no other.
-/

set_option autoImplicit false

namespace Frontispiece
namespace Drawing

namespace Strict

/-! ## Operations

Each is the operation of the document with `modifyNode` and `kind` in place of the accesses.  The
order of accesses is that of the program: a new node is added before its parent is looked up. -/

/-- A node changed in its place. -/
def modifyNode (doc : Document) (id : NodeId) (f : Node → Node) : Option Document :=
  doc.nodes[id]?.map fun _ => doc.modifyNode id f

/-- What a node is. -/
def kind (doc : Document) (id : NodeId) : Option NodeKind :=
  doc.nodes[id]?.map Node.kind

/-- The children of a node. -/
def children (doc : Document) (id : NodeId) : Option (List NodeId) :=
  doc.nodes[id]?.map Node.children

/-- The tag of an element, and nothing for a text. -/
def tag (doc : Document) (id : NodeId) : Option (Option String) :=
  (kind doc id).map NodeKind.tag?

/-- An attribute of an element, if it has it. -/
def attr (doc : Document) (id : NodeId) (name : String) : Option (Option String) :=
  (kind doc id).map fun
    | .element _ attrs => attrs.get? name
    | .text _ => none

/-- An attribute that holds a number. -/
def number (doc : Document) (id : NodeId) (name : String) : Option (Option Float) :=
  (attr doc id name).map fun value =>
    value.bind fun value => Decimal.read? (Text.trim value.toList)

/-- The attributes of an element changed. -/
def modifyAttrs (doc : Document) (id : NodeId) (f : Fields String → Fields String) :
    Option Document :=
  modifyNode doc id fun node =>
    match node.kind with
    | .element tag attrs => { node with kind := .element tag (f attrs) }
    | .text _ => node

/-- An attribute set. -/
def setAttr (doc : Document) (id : NodeId) (name value : String) : Option Document :=
  modifyAttrs doc id (Fields.insert name value)

/-- An attribute taken away. -/
def removeAttr (doc : Document) (id : NodeId) (name : String) : Option Document :=
  modifyAttrs doc id fun attrs => attrs.erase name

/-- A new node, which its parent then hears of. -/
def pushNode (doc : Document) (parent : NodeId) (kind : NodeKind) : Option (Document × NodeId) := do
  let id := doc.nodes.size
  let doc : Document := ⟨doc.nodes.push ⟨kind, some parent, []⟩⟩
  let doc ← modifyNode doc parent fun node => { node with children := node.children ++ [id] }
  some (doc, id)

/-- A new element as the last child of `parent`. -/
def appendElement (doc : Document) (parent : NodeId) (tag : String) : Option (Document × NodeId) :=
  pushNode doc parent (.element tag [])

/-- A new element as the first child of `parent`. -/
def prependElement (doc : Document) (parent : NodeId) (tag : String) :
    Option (Document × NodeId) := do
  let (doc, id) ← appendElement doc parent tag
  let doc ← modifyNode doc parent fun node => { node with children := id :: node.children.dropLast }
  some (doc, id)

/-- A new text as the last child of `parent`. -/
def appendText (doc : Document) (parent : NodeId) (content : String) :
    Option (Document × NodeId) :=
  pushNode doc parent (.text content)

/-- The node without its children. -/
def clear (doc : Document) (id : NodeId) : Option Document :=
  modifyNode doc id fun node => { node with children := [] }

/-- A node in messages. -/
def describe (doc : Document) (id : NodeId) : Option String :=
  (kind doc id).map fun
    | .element tag attrs =>
      match attrs.get? "id" with
      | some name => "<" ++ tag ++ " id=\"" ++ name ++ "\">"
      | none => "<" ++ tag ++ ">"
    | .text _ => "#text"

/-- A copy of a node of `source` with everything below it, as the last child of `parent`.  The
number of the nodes of `source` is enough fuel. -/
def graft (source : Document) : Nat → Document → NodeId → NodeId → Option (Document × NodeId)
  | 0, _, _, _ => none
  | fuel + 1, doc, parent, id => do
    let kind ← kind source id
    let (doc, copy) ← pushNode doc parent kind
    let below ← children source id
    let doc ← below.foldlM (fun doc child => Prod.fst <$> graft source fuel doc copy child) doc
    some (doc, copy)

/-- Copies of nodes of `source` as the last children of `parent`. -/
def graftAll (source : Document) (fuel : Nat) (doc : Document) (parent : NodeId)
    (ids : List NodeId) : Option Document :=
  ids.foldlM (fun doc id => Prod.fst <$> graft source fuel doc parent id) doc

/-- An empty drawing with the root that the settings ask for. -/
def ofSettings (settings : Settings) : Option Document :=
  [("xmlns", "http://www.w3.org/2000/svg"), ("version", "1.1"),
    ("xmlns:xlink", "http://www.w3.org/1999/xlink"), ("preserveAspectRatio", settings.aspect),
    ("viewBox", settings.viewBox), ("width", Decimal.coordinate settings.width),
    ("height", Decimal.coordinate settings.height)].foldlM
    (fun doc (name, value) => setAttr doc Document.root name value) (Document.withRoot "svg")

/-! ## Nodes that are there

An access in range finds its node, and a change in range is the change of the document.  So each
operation on a node that is there is what it is without asking. -/

variable {doc : Document} {id : NodeId}

/-- An access in range goes on with what it found. -/
theorem liftM_some_bind {ε α β : Type} (a : α) (f : α → ExceptT ε Option β) :
    (liftM (some a) : ExceptT ε Option α) >>= f = f a := rfl

theorem modifyNode_eq (h : id < doc.nodes.size) (f : Node → Node) :
    modifyNode doc id f = some (doc.modifyNode id f) := by
  rw [modifyNode, Array.getElem?_eq_getElem h, Option.map_some]

theorem kind_eq (h : id < doc.nodes.size) : kind doc id = some doc.nodes[id].kind := by
  rw [kind, Array.getElem?_eq_getElem h, Option.map_some]

theorem kind?_eq (h : id < doc.nodes.size) : doc.kind? id = some doc.nodes[id].kind :=
  kind_eq h

theorem children_eq (h : id < doc.nodes.size) : children doc id = some (doc.children id) := by
  rw [children, Document.children_eq, Array.getElem?_eq_getElem h]
  rfl

theorem tag_eq (h : id < doc.nodes.size) : tag doc id = some (doc.tag? id) := by
  rw [tag, kind_eq h, Option.map_some, Document.tag?_eq_bind, Array.getElem?_eq_getElem h,
    Option.bind_some]

theorem attr_eq (h : id < doc.nodes.size) (name : String) :
    attr doc id name = some (doc.attr? id name) := by
  rw [attr, kind_eq h, Option.map_some, Document.attr?, Document.attrs, kind?_eq h]
  cases doc.nodes[id].kind with
  | element tag attrs => rfl
  | text content => rfl

theorem number_eq (h : id < doc.nodes.size) (name : String) :
    number doc id name = some (doc.number? id name) := by
  rw [number, attr_eq h, Option.map_some, Document.number?]

theorem modifyAttrs_eq (h : id < doc.nodes.size) (f : Fields String → Fields String) :
    modifyAttrs doc id f = some (doc.modifyAttrs id f) :=
  modifyNode_eq h _

theorem setAttr_eq (h : id < doc.nodes.size) (name value : String) :
    setAttr doc id name value = some (doc.setAttr id name value) :=
  modifyAttrs_eq h _

theorem removeAttr_eq (h : id < doc.nodes.size) (name : String) :
    removeAttr doc id name = some (doc.removeAttr id name) :=
  modifyAttrs_eq h _

theorem clear_eq (h : id < doc.nodes.size) : clear doc id = some (doc.clear id) :=
  modifyNode_eq h _

/-- The parent is there before the new node, so it is there after it. -/
theorem pushNode_eq (h : id < doc.nodes.size) (kind : NodeKind) :
    pushNode doc id kind = some (doc.pushNode id kind) := by
  have hlt : id < (⟨doc.nodes.push ⟨kind, some id, []⟩⟩ : Document).nodes.size := by
    rw [Array.size_push]
    exact Nat.lt_succ_of_lt h
  rw [pushNode, modifyNode_eq hlt]
  rfl

theorem appendElement_eq (h : id < doc.nodes.size) (tag : String) :
    appendElement doc id tag = some (doc.appendElement id tag) :=
  pushNode_eq h _

theorem appendText_eq (h : id < doc.nodes.size) (content : String) :
    appendText doc id content = some (doc.appendText id content) :=
  pushNode_eq h _

/-- A new first child is added without a miss below a node that is there. -/
theorem prependElement_eq (h : id < doc.nodes.size) (tag : String) :
    prependElement doc id tag = some (doc.prependElement id tag) := by
  have hlt : id < (doc.appendElement id tag).1.nodes.size := by
    rw [Document.size_appendElement]
    exact Nat.lt_succ_of_lt h
  rw [prependElement, appendElement_eq h]
  dsimp only [bind, Option.bind]
  rw [modifyNode_eq hlt]
  rfl

theorem describe_eq (h : id < doc.nodes.size) : describe doc id = some (doc.describe id) := by
  rw [describe, kind_eq h, Option.map_some, Document.describe, kind?_eq h]
  cases doc.nodes[id].kind with
  | element tag attrs => rfl
  | text content => rfl

/-- The settings are attributes of the root, which is there from the start. -/
theorem ofSettings_eq (settings : Settings) :
    ofSettings settings = some (Document.ofSettings settings) := by
  have hfold : ∀ (attrs : List (String × String)) (doc : Document),
      Document.root < doc.nodes.size →
      attrs.foldlM (fun doc entry => setAttr doc Document.root entry.1 entry.2) doc
        = some (attrs.foldl (fun doc entry => doc.setAttr Document.root entry.1 entry.2) doc) := by
    intro attrs
    induction attrs with
    | nil => exact fun _ _ => rfl
    | cons entry rest ih =>
      intro doc hroot
      rw [List.foldlM_cons, setAttr_eq hroot, List.foldl_cons]
      exact ih _ (by rwa [Document.size_setAttr])
  exact hfold _ _ (Document.withRoot_wellFormed "svg").root_lt

end Strict

/-! ## Branches of a document

A copy out of another document goes by the numbers of that document.  What is copied has to be said
without them, as a branch, and `Holds` ties the two: the branch is found at the number. -/

namespace Document

mutual

/-- The branch is found at a node from `first` on, and what is below a node comes after it. -/
def Holds (doc : Document) (first : NodeId) : NodeId → Branch → Prop
  | id, ⟨kind, children⟩ =>
    first ≤ id ∧ doc.kind? id = some kind ∧ HoldsAll doc (id + 1) (doc.children id) children

/-- The branches are found at the nodes, one after the other. -/
def HoldsAll (doc : Document) (first : NodeId) : List NodeId → List Branch → Prop
  | [], [] => True
  | id :: ids, branch :: branches => Holds doc first id branch ∧ HoldsAll doc first ids branches
  | [], _ :: _ | _ :: _, [] => False

end

variable {doc now : Document} {parent : NodeId}

mutual

/-- What is found stays where it is while the nodes do. -/
theorem Holds.of_same {first : NodeId}
    (hsame : ∀ id < doc.nodes.size, first ≤ id → now.nodes[id]? = doc.nodes[id]?) :
    ∀ {branch : Branch} {id : NodeId}, doc.Holds first id branch → now.Holds first id branch
  | ⟨kind, below⟩, id, ⟨hfirst, hkind, hbelow⟩ => by
    have hnode := hsame id (lt_of_kind? hkind) hfirst
    refine ⟨hfirst, ?_, ?_⟩
    · rw [kind?, hnode]
      exact hkind
    · rw [children_of_getElem? hnode]
      exact HoldsAll.of_same (fun other hlt hafter =>
        hsame other hlt (Nat.le_trans hfirst (Nat.le_of_succ_le hafter))) hbelow

theorem HoldsAll.of_same {first : NodeId}
    (hsame : ∀ id < doc.nodes.size, first ≤ id → now.nodes[id]? = doc.nodes[id]?) :
    ∀ {branches : List Branch} {ids : List NodeId}, doc.HoldsAll first ids branches →
      now.HoldsAll first ids branches
  | [], [], _ => trivial
  | _ :: _, _ :: _, ⟨hone, hrest⟩ => ⟨Holds.of_same hsame hone, HoldsAll.of_same hsame hrest⟩

end

theorem Holds.of_le {first lower id : NodeId} (hle : lower ≤ first) :
    ∀ {branch : Branch}, doc.Holds first id branch → doc.Holds lower id branch
  | ⟨_, _⟩, ⟨hfirst, hrest⟩ => ⟨Nat.le_trans hle hfirst, hrest⟩

theorem HoldsAll.of_le {first lower : NodeId} (hle : lower ≤ first) :
    ∀ {branches : List Branch} {ids : List NodeId}, doc.HoldsAll first ids branches →
      doc.HoldsAll lower ids branches
  | [], [], _ => trivial
  | _ :: _, _ :: _, ⟨hone, hrest⟩ => ⟨hone.of_le hle, HoldsAll.of_le hle hrest⟩

/-! ## Copies

A copy reads one document while it writes another, which is the same walk twice.  The parent in the
new document is there when a copy starts, and stays there while it grows. -/

/-- Copies do not change what the old nodes are. -/
theorem Grows.kind?_eq (h : Grows doc parent now) {id : NodeId} (hid : id < doc.nodes.size) :
    now.kind? id = doc.kind? id := by
  induction h with
  | refl => rfl
  | push h hplace habove kind ih =>
    rw [kind?_pushNode, if_neg (Nat.ne_of_lt (Nat.lt_of_lt_of_le hid h.size_le)), ih]

theorem graftAll_grows (hparent : parent < doc.nodes.size) (branches : List Branch) :
    Grows doc parent (doc.graftAll parent branches) :=
  (Grows.graftAll branches .refl (.inl rfl) hparent).1

theorem lt_size_graft (hparent : parent < doc.nodes.size) (branch : Branch) :
    parent < (doc.graft parent branch).1.nodes.size :=
  Nat.lt_of_lt_of_le hparent (graft_grows hparent branch).size_le

/-- The parent of a copy hears of one new child. -/
theorem children_graft (hparent : parent < doc.nodes.size) (branch : Branch) :
    (doc.graft parent branch).1.children parent = doc.children parent ++ [doc.nodes.size] := by
  obtain ⟨kind, below⟩ := branch
  have hnew : doc.nodes.size < (doc.pushNode parent kind).1.nodes.size := by simp
  have hsame := (Changes.grows hnew (graftAll_grows hnew below)).1.same parent
    (Nat.lt_trans hparent hnew) (Nat.ne_of_lt hparent)
  rw [graft_fst, children_of_getElem? hsame, children_pushNode hparent, if_pos rfl]

mutual

/-- **What was copied is found**, at new nodes. -/
theorem graft_holds : ∀ (branch : Branch) {doc : Document} {parent : NodeId},
    parent < doc.nodes.size →
    (doc.graft parent branch).1.Holds doc.nodes.size doc.nodes.size branch
  | ⟨kind, below⟩, doc, parent, hparent => by
    have hsize := size_pushNode doc parent kind
    have hnew : doc.nodes.size < (doc.pushNode parent kind).1.nodes.size := by simp
    have hkind : (doc.pushNode parent kind).1.kind? doc.nodes.size = some kind := by
      rw [kind?, getElem?_pushNode_new hparent]
      rfl
    have hempty : (doc.pushNode parent kind).1.children doc.nodes.size = [] := by
      rw [children_eq, getElem?_pushNode_new hparent]
      rfl
    obtain ⟨ids, hids, hbelow⟩ := graftAll_holds below hnew
    rw [hempty, List.nil_append] at hids
    rw [hsize] at hbelow
    rw [graft_fst]
    refine ⟨Nat.le_refl _, ?_, hids ▸ hbelow⟩
    rw [(graftAll_grows hnew below).kind?_eq hnew, hkind]

/-- The same for branches, which the parent has as its last children. -/
theorem graftAll_holds : ∀ (branches : List Branch) {doc : Document} {parent : NodeId},
    parent < doc.nodes.size →
    ∃ ids, (doc.graftAll parent branches).children parent = doc.children parent ++ ids ∧
      (doc.graftAll parent branches).HoldsAll doc.nodes.size ids branches
  | [], doc, parent, _ => ⟨[], by rw [graftAll, List.append_nil], trivial⟩
  | branch :: rest, doc, parent, hparent => by
    have hlt := lt_size_graft hparent branch
    have hgrown := (graft_grows hparent branch).size_le
    obtain ⟨ids, hids, hrest⟩ := graftAll_holds rest hlt
    -- the copies that come later change the parent, which comes before this one
    have hsame := (Changes.grows hlt (graftAll_grows hlt rest)).1.same
    have hone := (graft_holds branch hparent).of_same fun id hid hafter =>
      hsame id hid (Nat.ne_of_gt (Nat.lt_of_lt_of_le hparent hafter))
    rw [graftAll]
    refine ⟨doc.nodes.size :: ids, ?_, hone, hrest.of_le hgrown⟩
    rw [hids, children_graft hparent, List.append_assoc]
    rfl

end

/-- The copy itself is the first of the new nodes. -/
theorem size_lt_graft (hparent : parent < doc.nodes.size) : ∀ branch : Branch,
    doc.nodes.size < (doc.graft parent branch).1.nodes.size
  | ⟨kind, below⟩ => lt_of_kind? (graft_holds ⟨kind, below⟩ hparent).2.1

end Document

namespace Strict

open Document (Holds HoldsAll)

mutual

/-- **A branch that is found is copied**, with every number in range. -/
theorem graft_of_holds {source : Document} : ∀ {branch : Branch} {fuel : Nat} {doc : Document}
    {parent first id : NodeId}, source.Holds first id branch → source.nodes.size ≤ id + fuel →
    parent < doc.nodes.size → graft source fuel doc parent id = some (doc.graft parent branch)
  | ⟨kind, below⟩, 0, doc, parent, first, id, ⟨_, hkind, _⟩, hfuel, hparent =>
    absurd (Document.lt_of_kind? hkind) (Nat.not_lt.2 hfuel)
  | ⟨kind, below⟩, fuel + 1, doc, parent, first, id, ⟨hfirst, hkind, hbelow⟩, hfuel, hparent => by
    have hid := Document.lt_of_kind? hkind
    have hnew : doc.nodes.size < (doc.pushNode parent kind).1.nodes.size := by simp
    have hall : graftAll source fuel (doc.pushNode parent kind).1 doc.nodes.size
        (source.children id) = some ((doc.pushNode parent kind).1.graftAll doc.nodes.size below) :=
      graftAll_of_holds hbelow (by omega) hnew
    rw [graft, Strict.kind, ← Document.kind?, hkind, children_eq hid]
    dsimp only [bind, Option.bind]
    rw [pushNode_eq hparent]
    dsimp only
    rw [← graftAll]
    exact hall ▸ rfl

/-- Branches are grafted from the nodes that hold them without a miss, with as much fuel as there
are nodes. -/
theorem graftAll_of_holds {source : Document} : ∀ {branches : List Branch} {fuel : Nat}
    {doc : Document} {parent first : NodeId} {ids : List NodeId},
    source.HoldsAll first ids branches → source.nodes.size ≤ first + fuel →
    parent < doc.nodes.size →
    graftAll source fuel doc parent ids = some (doc.graftAll parent branches)
  | [], _, _, _, _, [], _, _, _ => rfl
  | branch :: branches, fuel, doc, parent, first, id :: ids, ⟨hone, hrest⟩, hfuel, hparent => by
    have hfirst : first ≤ id := by
      obtain ⟨kind, below⟩ := branch
      exact hone.1
    have hgraft : graft source fuel doc parent id = some (doc.graft parent branch) :=
      graft_of_holds hone (Nat.le_trans hfuel (Nat.add_le_add_right hfirst fuel)) hparent
    rw [graftAll, List.foldlM_cons, hgraft]
    exact graftAll_of_holds hrest hfuel (Document.lt_size_graft hparent branch)

end

end Strict
end Drawing
end Frontispiece
