import Frontispiece.Proofs.Drawing.Strict
import Frontispiece.Proofs.Markup.Readable

/-!
# Reading into a document

A drawing that is imported is read event by event into a document of its own, with the numbers of
the open elements on a stack.  `Markup.treeOf` reads the same events into a tree.  Here the reader
with its stack is written down, every access asking for its node, and compared with the tree: it
never misses, and what it has in the end is the document of the tree.

## What is here

* `Strict.Reader` — what has been read: the document, and the open elements with their tags.
* `Strict.parse`, `Strict.parseSvg` — the document of a text.
* `Grown` — the document and the stack that go with a list of open elements.
* `Mirrors` — the reader stands where the tree builder does.  One event keeps it so, and so does a
  run.
* `Strict.parse_eq`, `Strict.parseSvg_eq` — the reader makes the document of the tree.

The two readers differ in what they keep of open elements.  The tree builder has them on its stack
with their children so far and hangs an element into its parent when it is closed.  The document has
each element below its parent from the start, and the stack has numbers only.  `Grown` describes the
document by the stack of the tree builder, and it is an invariant because a new child always goes to
the element on top, which is the last of its parent's children.
-/

set_option autoImplicit false

namespace Frontispiece

/-- The attributes of a tag have distinct names. -/
theorem Markup.events_nodup {s : List Char} : ∀ entry ∈ Markup.events s,
    entry.2.Has fun _ attrs => attrs.keys.Nodup := by
  intro entry hentry
  obtain ⟨found, hfound, rfl⟩ := List.mem_map.1 hentry
  have hreadable := Markup.eventsWithin_readable _ _ found hfound
  obtain ⟨rest, event⟩ := found
  match event, hreadable with
  | .start _ (some _), h | .empty _ (some _), h => exact h.nodup
  | .start _ none, _ | .empty _ none, _ | .finish _, _ | .text _, _ | .silent, _ | .broken, _ =>
    trivial

namespace Drawing

open Markup (Tree Event OpenElement Progress ParseError)

namespace Strict

/-! ## The reader

As the program has it: a document that grows, a stack of numbers, and a stack of tags for the
messages.  An element is made when its tag is met, and its attributes are set one after the other.
-/

/-- What has been read: the document, if there is an element yet, the nodes of the open elements,
innermost first, and their tags. -/
structure Reader where
  doc : Option Document
  stack : List NodeId
  opened : List String

/-- Attributes set one after the other. -/
def setAttrs (doc : Document) (id : NodeId) (attrs : Fields String) : Option Document :=
  attrs.foldlM (fun doc entry => setAttr doc id entry.1 entry.2) doc

namespace Reader

/-- A new element with its attributes: the first is the root, and the others go into the element
that was opened last. -/
def openElement (reader : Reader) (tag : String) (attrs : Option (Fields String)) :
    ExceptT Markup.Fault Option (Document × NodeId) := do
  let (doc, id) ←
    match reader.doc with
    | none => pure (Document.withRoot tag, Document.root)
    | some doc =>
      match reader.stack with
      | parent :: _ => appendElement doc parent tag
      | [] => throw .afterRoot
  match attrs with
  | none => throw .malformed
  | some attrs => do
    let doc ← setAttrs doc id attrs
    pure (doc, id)

/-- What has been read after one more event. -/
def step (reader : Reader) : Event → ExceptT Markup.Fault Option Reader
  | .silent => pure reader
  | .broken => throw .malformed
  | .text content =>
    match reader.doc, reader.stack with
    | some doc, parent :: _ => do
      let (doc, _) ← appendText doc parent content
      pure { reader with doc := some doc }
    | _, _ => if Text.allBlank content.toList then pure reader else throw .textOutside
  | .start tag attrs => do
    let (doc, id) ← reader.openElement tag attrs
    pure ⟨some doc, id :: reader.stack, tag :: reader.opened⟩
  | .empty tag attrs => do
    let (doc, _) ← reader.openElement tag attrs
    pure { reader with doc := some doc }
  | .finish tag =>
    match reader.opened with
    | [] => throw .malformed
    | name :: outer =>
      if name == tag then pure ⟨reader.doc, reader.stack.tail, outer⟩ else throw .malformed

/-- What has been read after a list of events. -/
def run (reader : Reader) : List (Nat × Event) → ExceptT ParseError Option Reader
  | [] => pure reader
  | (position, event) :: rest => do
    let reader ← (reader.step event).adapt (ParseError.mk position)
    reader.run rest

/-- The document that has been read.  An element that is still open is looked up for the message:
it is the one that was opened last. -/
def finish (reader : Reader) (size : Nat) : ExceptT ParseError Option Document :=
  if reader.stack.isEmpty then
    match reader.doc with
    | some doc => pure doc
    | none => throw ⟨size, .noRoot⟩
  else do
    let element ←
      match reader.doc with
      | some doc => do
        let last ← reader.stack.head?
        describe doc last
      | none => pure ""
    throw ⟨size, .unclosed element⟩

end Reader

/-- The document that a text holds. -/
def parse (s : List Char) : ExceptT ParseError Option Document := do
  let reader ← Reader.run ⟨none, [], []⟩ (Markup.events s)
  reader.finish (Text.byteLength s)

/-- The drawing that a text holds. -/
def parseSvg (s : List Char) : ExceptT ParseError Option Document := do
  let doc ← parse s
  match ← (tag doc Document.root : Option (Option String)) with
  | some "svg" => pure doc
  | other => throw ⟨0, .notDrawing (other.getD "?")⟩

end Strict

/-! ## Attributes of a new element

The program makes an element without attributes and then sets them, and a tree has them from the
start.  With distinct names there is no difference between the two, and names that come twice are
refused before. -/

namespace Document

variable {doc now : Document} {parent : NodeId}

/-- Documents with the same nodes are the same. -/
theorem eq_of_getElem? (h : ∀ id : Nat, now.nodes[id]? = doc.nodes[id]?) : now = doc := by
  cases now
  cases doc
  rw [mk.injEq]
  exact Array.ext_getElem? h

/-- A new element may have its attributes from the start. -/
theorem modifyAttrs_pushNode (hparent : parent < doc.nodes.size) (tag : String)
    (attrs : Fields String) (f : Fields String → Fields String) :
    (doc.pushNode parent (.element tag attrs)).1.modifyAttrs doc.nodes.size f
      = (doc.pushNode parent (.element tag (f attrs))).1 := by
  refine eq_of_getElem? fun id => ?_
  rw [modifyAttrs, getElem?_modifyNode]
  by_cases hnew : doc.nodes.size = id
  · subst hnew
    rw [if_pos rfl, getElem?_pushNode_new hparent, getElem?_pushNode_new hparent, Option.map_some]
  · rw [if_neg hnew, pushNode, pushNode, getElem?_modifyNode, getElem?_modifyNode,
      Array.getElem?_push, Array.getElem?_push, if_neg (Ne.symm hnew), if_neg (Ne.symm hnew)]

/-- The document of an element without children. -/
theorem modifyAttrs_root (tag : String) (attrs : Fields String)
    (f : Fields String → Fields String) :
    (ofTree (.element tag attrs [])).modifyAttrs root f = ofTree (.element tag (f attrs) []) := rfl

/-- The root of a document that holds an element is that element. -/
theorem kind?_root_ofTree (tag : String) (attrs : Fields String) (children : List Tree) :
    (ofTree (.element tag attrs children)).kind? root = some (.element tag attrs) := by
  let first : Document := ⟨#[⟨.element tag attrs, none, []⟩]⟩
  have hroot : root < first.nodes.size := Nat.zero_lt_one
  exact (graftAll_grows hroot (Branch.ofTrees children)).kind?_eq hroot

theorem root_lt_ofTree (tree : Tree) : root < (ofTree tree).nodes.size := by
  cases tree with
  | text content => exact Nat.zero_lt_one
  | element tag attrs children => exact lt_of_kind? (kind?_root_ofTree tag attrs children)

theorem tag?_root_ofTree (tree : Tree) : (ofTree tree).tag? root = tree.tag? := by
  cases tree with
  | text content => rfl
  | element tag attrs children =>
    rw [tag?, kind?_root_ofTree]
    rfl

/-- What is below the root of a tree is found below the root of the document. -/
theorem ofTree_holds (tree : Tree) :
    ∃ first, (ofTree tree).HoldsAll first ((ofTree tree).children root)
      (Branch.ofTrees tree.children) := by
  cases tree with
  | text content => exact ⟨0, trivial⟩
  | element tag attrs children =>
    let first : Document := ⟨#[⟨.element tag attrs, none, []⟩]⟩
    have hroot : root < first.nodes.size := Nat.zero_lt_one
    obtain ⟨ids, hids, hall⟩ := graftAll_holds (Branch.ofTrees children) hroot
    have hids : (ofTree (.element tag attrs children)).children root = ids := hids
    exact ⟨first.nodes.size, hids ▸ hall⟩

theorem graftAll_append (second : List Branch) : ∀ (first : List Branch) (doc : Document)
    (parent : NodeId), doc.graftAll parent (first ++ second)
      = (doc.graftAll parent first).graftAll parent second
  | [], _, _ => rfl
  | branch :: rest, doc, parent => by
    rw [List.cons_append, graftAll, graftAll, graftAll_append second rest]

end Document

theorem Branch.ofTrees_eq_map (trees : List Tree) : ofTrees trees = trees.map ofTree := by
  induction trees with
  | nil => rfl
  | cons child rest ih => rw [ofTrees, ih, List.map_cons]

/-! ## Open elements in a document

The tree builder keeps open elements apart, each with the children that it has so far, and puts one
into another when it is closed.  In the document they hang together from the start.  `Grown` says
which document goes with which open elements. -/

/-- The document of open elements, and their nodes, innermost first.  Each is a child of the one
around it, with the children that it has so far. -/
inductive Grown : List OpenElement → Document → List NodeId → Prop where
  | outermost (e : OpenElement) : Grown [e] (Document.ofTree e.close) [Document.root]
  | inner {outer : List OpenElement} {doc : Document} {parent : NodeId} {ids : List NodeId}
    (h : Grown outer doc (parent :: ids)) (e : OpenElement) :
    Grown (e :: outer) (doc.graft parent (Branch.ofTree e.close)).1
      (doc.nodes.size :: parent :: ids)

namespace Grown

variable {doc : Document} {e outside : OpenElement} {outer : List OpenElement} {id : NodeId}
  {ids : List NodeId}

theorem lt (h : Grown outer doc (id :: ids)) : id < doc.nodes.size := by
  generalize hstack : id :: ids = stack at h
  induction h generalizing id ids with
  | outermost e =>
    obtain rfl := (List.cons.inj hstack).1
    exact Document.root_lt_ofTree _
  | inner h e ih =>
    obtain rfl := (List.cons.inj hstack).1
    exact Document.size_lt_graft (ih rfl) _

/-- The innermost element gets one more child. -/
theorem push (h : Grown (e :: outer) doc (id :: ids)) (child : Tree) :
    Grown (e.push child :: outer) (doc.graft id (Branch.ofTree child)).1 (id :: ids) := by
  have hclose : Branch.ofTrees (e.push child).before.reverse
      = Branch.ofTrees e.before.reverse ++ [Branch.ofTree child] := by
    simp [OpenElement.push, Branch.ofTrees_eq_map]
  cases h with
  | outermost =>
    have hgrown := Grown.outermost (e.push child)
    rw [Document.ofTree, OpenElement.close, Branch.ofTree] at hgrown
    dsimp only at hgrown
    rw [hclose, Document.graftAll_append] at hgrown
    exact hgrown
  | inner h =>
    have hgrown := Grown.inner h (e.push child)
    rw [OpenElement.close, Branch.ofTree, Document.graft_fst, hclose,
      Document.graftAll_append] at hgrown
    exact hgrown

/-- A new element is opened in the innermost. -/
theorem start (h : Grown outer doc (id :: ids)) (tag : String) (attrs : Fields String) :
    Grown (⟨tag, attrs, []⟩ :: outer) (doc.pushNode id (.element tag attrs)).1
      (doc.nodes.size :: id :: ids) :=
  .inner h ⟨tag, attrs, []⟩

/-- An element that is closed is a child of the one around it, where it stands. -/
theorem close (h : Grown (e :: outside :: outer) doc (id :: ids)) :
    ∃ parent rest, ids = parent :: rest ∧ Grown (outside.push e.close :: outer) doc ids := by
  cases h with
  | inner h => exact ⟨_, _, rfl, h.push e.close⟩

/-- The outermost element is closed with everything in it. -/
theorem close_last (h : Grown [e] doc (id :: ids)) : doc = Document.ofTree e.close ∧ ids = [] := by
  cases h with
  | outermost => exact ⟨rfl, rfl⟩
  | inner h => cases h

/-- The innermost element is the one that was opened last. -/
theorem describe_eq (h : Grown (e :: outer) doc (id :: ids)) : doc.describe id = e.describe := by
  have hkind : doc.kind? id = some (.element e.tag e.attrs) := by
    cases h with
    | outermost => exact Document.kind?_root_ofTree e.tag e.attrs _
    | inner h =>
      exact (Document.graft_holds ⟨.element e.tag e.attrs, _⟩ h.lt).2.1
  rw [Document.describe, hkind]
  rfl

end Grown

/-! ## The reader beside the tree builder

Both go through the same events.  Since the stack has a node for each open element, the node that is
asked for is there, and since it mirrors the open elements, both find the same faults. -/

namespace Strict

variable {doc : Document} {reader : Reader} {p : Progress} {id : NodeId}

/-- Attributes set one after the other are set at once, wherever the element stands. -/
theorem setAttrs_eq {holding : Fields String → Document}
    (hlt : ∀ attrs, id < (holding attrs).nodes.size)
    (hmodify : ∀ attrs f, (holding attrs).modifyAttrs id f = holding (f attrs)) :
    ∀ (attrs : List (String × String)) (read : Fields String),
    setAttrs (holding read) id attrs
      = some (holding (attrs.foldl (fun kept field => kept.insert field.1 field.2) read))
  | [], _ => rfl
  | field :: rest, read => by
    rw [setAttrs, List.foldlM_cons, setAttr_eq (hlt read), Document.setAttr, hmodify,
      List.foldl_cons]
    exact setAttrs_eq hlt hmodify rest _

/-- Attributes with distinct names are those that the element has in the end. -/
theorem setAttrs_of_nodup {holding : Fields String → Document}
    (hlt : ∀ attrs, id < (holding attrs).nodes.size)
    (hmodify : ∀ attrs f, (holding attrs).modifyAttrs id f = holding (f attrs))
    {attrs : Fields String} (h : attrs.keys.Nodup) :
    setAttrs (holding []) id attrs = some (holding attrs) := by
  rw [setAttrs_eq hlt hmodify, Fields.foldl_insert_of_nodup _ (by simpa using h)]
  rfl

/-- The first element is the root. -/
theorem openElement_first (tag : String) {attrs : Fields String} (h : attrs.keys.Nodup) :
    Reader.openElement ⟨none, [], []⟩ tag (some attrs)
      = pure (Document.ofTree (.element tag attrs []), Document.root) := by
  have hset : setAttrs (Document.withRoot tag) Document.root attrs
      = some (Document.ofTree (.element tag attrs [])) :=
    setAttrs_of_nodup (fun attrs => Document.root_lt_ofTree (.element tag attrs []))
      (Document.modifyAttrs_root tag) h
  simp only [Reader.openElement, pure_bind, hset]
  rfl

/-- Any other goes into the element that was opened last. -/
theorem openElement_inner (hid : id < doc.nodes.size) (ids : List NodeId) (opened : List String)
    (tag : String) {attrs : Fields String} (h : attrs.keys.Nodup) :
    Reader.openElement ⟨some doc, id :: ids, opened⟩ tag (some attrs)
      = pure (doc.pushNode id (.element tag attrs)) := by
  have hset : setAttrs (doc.pushNode id (.element tag [])).1 doc.nodes.size attrs
      = some (doc.pushNode id (.element tag attrs)).1 :=
    setAttrs_of_nodup (fun attrs => by simp) (Document.modifyAttrs_pushNode hid tag) h
  rw [Reader.openElement]
  dsimp only
  rw [appendElement_eq hid, liftM_some_bind]
  change liftM (setAttrs (doc.pushNode id (.element tag [])).1 doc.nodes.size attrs) >>= _ = _
  rw [hset, liftM_some_bind]
  rfl

/-- Malformed attributes are found when the element is made. -/
theorem openElement_malformed (hid : id < doc.nodes.size) (ids : List NodeId)
    (opened : List String) (tag : String) :
    Reader.openElement ⟨some doc, id :: ids, opened⟩ tag none = throw .malformed := by
  rw [Reader.openElement]
  dsimp only
  rw [appendElement_eq hid, liftM_some_bind]

/-- The reader stands where the tree builder does. -/
inductive Mirrors : Reader → Progress → Prop where
  /-- Before the first element. -/
  | before : Mirrors ⟨none, [], []⟩ ⟨[], none⟩
  /-- In elements that are open. -/
  | inside {e : OpenElement} {outer : List OpenElement} {doc : Document} {id : NodeId}
    {ids : List NodeId} (h : Grown (e :: outer) doc (id :: ids)) :
    Mirrors ⟨some doc, id :: ids, (e :: outer).map OpenElement.tag⟩ ⟨e :: outer, none⟩
  /-- After the first element. -/
  | after (tree : Tree) : Mirrors ⟨some (Document.ofTree tree), [], []⟩ ⟨[], some tree⟩

/-- The reader misses nothing, and answers as the tree builder. -/
def Follows {ε : Type} (x : ExceptT ε Option Reader) : Except ε Progress → Prop
  | .ok p => ∃ reader, x = pure reader ∧ Mirrors reader p
  | .error e => x = throw e

/-- Blank text may stand where no element is open. -/
theorem Follows.ite (h : Mirrors reader p) (c : Bool) {ε : Type} (e : ε) :
    Follows (if c then pure reader else throw e) (if c then .ok p else .error e) := by
  cases c with
  | false => rfl
  | true => exact ⟨reader, rfl, h⟩

/-- **One event keeps them together.** -/
theorem Mirrors.step (h : Mirrors reader p) {event : Event}
    (hevent : event.Has fun _ attrs => attrs.keys.Nodup) :
    Follows (reader.step event) (p.step event) := by
  cases event with
  | silent => exact ⟨reader, rfl, h⟩
  | broken => rfl
  -- text outside of the elements is passed over or refused by both, as it is blank or not
  | text content =>
    cases h with
    | before => exact .ite .before _ _
    | after tree => exact .ite (.after tree) _ _
    | inside h =>
      refine ⟨_, ?_, .inside (h.push (.text content))⟩
      rw [Reader.step]
      dsimp only
      rw [appendText_eq h.lt]
      rfl
  | start tag attrs =>
    cases attrs with
    | none =>
      cases h with
      | before | after tree => rfl
      | inside h =>
        -- the reader adds the node first, and then meets the attributes that cannot be read
        rw [Reader.step, openElement_malformed h.lt]
        rfl
    | some attrs =>
      cases h with
      | before =>
        refine ⟨_, ?_, .inside (.outermost ⟨tag, attrs, []⟩)⟩
        rw [Reader.step, openElement_first tag hevent]
        rfl
      | after tree => rfl
      | inside h =>
        refine ⟨_, ?_, .inside (h.start tag attrs)⟩
        rw [Reader.step, openElement_inner h.lt _ _ tag hevent]
        rfl
  | empty tag attrs =>
    cases attrs with
    | none =>
      cases h with
      | before | after tree => rfl
      | inside h =>
        rw [Reader.step, openElement_malformed h.lt]
        rfl
    | some attrs =>
      cases h with
      | before =>
        refine ⟨_, ?_, .after (.element tag attrs [])⟩
        rw [Reader.step, openElement_first tag hevent]
        rfl
      | after tree => rfl
      | inside h =>
        refine ⟨_, ?_, .inside (h.push (.element tag attrs []))⟩
        rw [Reader.step, openElement_inner h.lt _ _ tag hevent]
        rfl
  | finish tag =>
    cases h with
    | before | after tree => rfl
    | @inside e outer doc id ids h =>
      by_cases htag : (e.tag == tag) = true
      · -- the tree builder compares with the same tag
        have hreader : Reader.step ⟨some doc, id :: ids, (e :: outer).map OpenElement.tag⟩
            (.finish tag) = pure ⟨some doc, ids, outer.map OpenElement.tag⟩ := if_pos htag
        have hprogress : Progress.step ⟨e :: outer, none⟩ (.finish tag)
            = .ok (Progress.place ⟨outer, none⟩ e.close) := if_pos htag
        rw [hreader, hprogress]
        -- the tree that is closed ends the document, or goes into the element around it
        cases outer with
        | nil =>
          obtain ⟨rfl, rfl⟩ := h.close_last
          exact ⟨_, rfl, .after e.close⟩
        | cons outside outer =>
          obtain ⟨parent, rest, rfl, h⟩ := h.close
          exact ⟨_, rfl, .inside h⟩
      · have hreader : Reader.step ⟨some doc, id :: ids, (e :: outer).map OpenElement.tag⟩
            (.finish tag) = throw .malformed := if_neg htag
        have hprogress : Progress.step ⟨e :: outer, none⟩ (.finish tag) = .error .malformed :=
          if_neg htag
        rw [hreader, hprogress]
        rfl

/-- **A run keeps them together.** -/
theorem Mirrors.run : ∀ {events : List (Nat × Event)} {reader : Reader} {p : Progress},
    Mirrors reader p → (∀ entry ∈ events, entry.2.Has fun _ attrs => attrs.keys.Nodup) →
    Follows (reader.run events) (p.run events)
  | [], reader, _, h, _ => ⟨reader, rfl, h⟩
  | (position, event) :: rest, reader, p, h, hevents => by
    have hstep := h.step (hevents _ List.mem_cons_self)
    rw [Reader.run, Progress.run]
    cases hp : p.step event with
    | error fault =>
      rw [hp] at hstep
      obtain hstep : reader.step event = throw fault := hstep
      rw [hstep]
      rfl
    | ok next =>
      rw [hp] at hstep
      obtain ⟨after, hafter, hnext⟩ := hstep
      rw [hafter]
      exact hnext.run fun entry hentry => hevents entry (List.mem_cons_of_mem _ hentry)

/-- The answer at the end of the text is the document of the tree. -/
theorem Mirrors.finish (h : Mirrors reader p) (size : Nat) :
    (reader.finish size).run = some (Except.map Document.ofTree
      (match p.openElements with
      | e :: _ => .error ⟨size, .unclosed e.describe⟩
      | [] =>
        match p.root with
        | some tree => .ok tree
        | none => .error ⟨size, .noRoot⟩)) := by
  cases h with
  | before | after tree => rfl
  | inside h =>
    rw [Reader.finish]
    dsimp only [List.head?_cons]
    rw [liftM_some_bind, Strict.describe_eq h.lt, h.describe_eq]
    rfl

/-- **The reader makes the document of the tree.** -/
theorem parse_eq (s : List Char) :
    (parse s).run = some ((Markup.parse s).map Document.ofTree) := by
  have hrun := Mirrors.run .before (Markup.events_nodup : ∀ entry ∈ Markup.events s, _)
  rw [parse, Markup.parse, Markup.treeOf]
  cases hp : Progress.run ⟨[], none⟩ (Markup.events s) with
  | error e =>
    rw [hp] at hrun
    obtain hrun : Reader.run ⟨none, [], []⟩ (Markup.events s) = throw e := hrun
    rw [hrun]
    rfl
  | ok next =>
    rw [hp] at hrun
    obtain ⟨after, hafter, hnext⟩ := hrun
    rw [hafter]
    exact hnext.finish _

/-- **So does the reader of drawings.** -/
theorem parseSvg_eq (s : List Char) :
    (parseSvg s).run = some ((Markup.parseSvg s).map Document.ofTree) := by
  have hparse := parse_eq s
  rw [parseSvg, Markup.parseSvg]
  cases htree : Markup.parse s with
  | error e =>
    rw [htree] at hparse
    obtain hparse : parse s = throw e := hparse
    rw [hparse]
    rfl
  | ok tree =>
    rw [htree] at hparse
    obtain hparse : parse s = pure (Document.ofTree tree) := hparse
    rw [hparse, pure_bind, tag_eq (Document.root_lt_ofTree tree), liftM_some_bind,
      Document.tag?_root_ofTree]
    simp only [bind, Except.bind]
    by_cases hsvg : tree.tag? = some "svg"
    · rw [hsvg]
      rfl
    · -- by `hsvg` only the last case of both matches is left
      simp only
      rfl

end Strict
end Drawing
end Frontispiece
