import Frontispiece.Proofs.Drawing.Definitions
import Frontispiece.Proofs.Scene.Steps

/-!
# The definitions of a scene

The methods `defs` and `symbol` find the definitions of a drawing at its root, or make them there, on
whichever node they are called.  An element of the same tag can come to the root in two other ways:
by the method `element`, which makes elements of any tag, and by an import into the root.  A scene in
which neither happens has at most one element for definitions at its root after each step, and in
front.

## What is here

* `Step.AddsDefs` — the two other ways.
* `Step.OneDefs` — what a step leaves: at most one element for definitions, in front, which `defs`
  answers with and which gets the new node of `symbol`.
* `Placed` — the invariant, with `Placed.keepsNodes` for the methods that draw on their target.
* `perform_oneDefs`, `Leads.oneDefs` — one step, and then steps one after the other by induction.
* `steps_oneDefs` — **all steps of a scene.**

The invariant could not be stated for drawings alone, as a scene is free to make an element of that
tag wherever it likes.  So the theorem has a hypothesis on the steps of the scene, which names the
two ways in which it may do so.  Everything else that a scene can do, with any nesting of calls,
keeps the definitions in front; also cutting the drawing off below them, or clearing the root
altogether.
-/

set_option autoImplicit false

namespace Frontispiece
namespace Scene

open Drawing (Document NodeId Branch NodeKind)

variable {σ ε : Type}

/-! ## Steps

What a scene may do to spoil the order is stated of single steps, so that it can be seen from the
list of steps whether it is done. -/

namespace Step

/-- A step puts an element for definitions somewhere by its tag, or to the root by an import. -/
def AddsDefs (step : Step) : Prop :=
  (step.name = Method.element.name ∧ step.after.tag? step.result = some "defs") ∨
    (step.name = Method.importDrawing.name ∧ step.target = Document.root ∧
      ∃ child ∈ step.after.children Document.root, child ∉ step.before.children Document.root ∧
        step.after.tag? child = some "defs")

/-- After a step there is at most one element for definitions at the root, and it is the first child.
If the step is that of a call of `defs`, the call answered with it; if it is that of a call of
`symbol`, one element was put below it, a symbol, and the call answered with that.  If there was one
before, it is the same. -/
structure OneDefs (step : Step) : Prop where
  single : step.after.definitions.length ≤ 1
  first : ∀ d ∈ step.after.definitions, (step.after.children Document.root).head? = some d
  defs : step.name = Method.defs.name →
    step.after.definitions = [step.result] ∧ step.before.definitions ⊆ [step.result]
  symbol : step.name = Method.symbol.name → ∃ d, step.after.definitions = [d] ∧
    step.before.definitions ⊆ [d] ∧
    step.after.children d = step.before.children d ++ [step.result] ∧
    step.after.tag? step.result = some "symbol"

end Step

/-! ## The invariant

The document is one that operations make, its definitions are in front, and the node that is drawn
on is there.  A method that draws on this node keeps all of it as long as the new elements have
other tags. -/

/-- Operations made the document, its definitions are in front, and a node of it is at hand. -/
structure Placed (doc : Document) (id : NodeId) : Prop where
  reachable : doc.Reachable
  defsFirst : doc.DefsFirst
  lt : id < doc.nodes.size

variable {easel : Easel (StateM σ) ε} {doc now : Document} {id target result : NodeId} {s : σ}
  {name : String} {raw : List Json}

namespace Placed

/-- Drawing on the node at hand keeps the definitions in front, if no new element has their tag. -/
theorem keepsNodes : KeepsNodes (· ≠ "defs") Placed where
  setAttr h name value :=
    ⟨h.reachable.setAttr _ name value, h.defsFirst.modifyAttrs _ _, by simpa using h.lt⟩
  removeAttr h name :=
    ⟨h.reachable.removeAttr _ name, h.defsFirst.modifyAttrs _ _, by simpa using h.lt⟩
  appendElement {now id} h {tag} htag := by
    have hkind : (NodeKind.element tag []).tag? ≠ some "defs" := by simpa [NodeKind.tag?] using htag
    exact ⟨h.reachable.appendElement h.lt tag,
      h.defsFirst.pushNode h.reachable.wellFormed h.lt hkind,
      by simp [Document.appendElement, Document.pushNode]⟩
  appendText {now id} h content := by
    have hkind : (NodeKind.text content).tag? ≠ some "defs" := by simp [NodeKind.tag?]
    exact ⟨h.reachable.appendText h.lt content,
      h.defsFirst.pushNode h.reachable.wellFormed h.lt hkind,
      by simpa using Nat.lt_succ_of_lt h.lt⟩
  back h hnext hsize := ⟨hnext.reachable, hnext.defsFirst, Nat.lt_of_lt_of_le h.lt hsize⟩
  allowed_of_ne _ h := h

theorem clear (h : Placed doc id) : Placed (doc.clear id) id :=
  ⟨h.reachable.clear id, h.defsFirst.clear h.reachable.wellFormed id, by simpa using h.lt⟩

/-- What is in front is all that there is. -/
theorem oneDefs (h : Placed now result) (hdefs : name ≠ Method.defs.name)
    (hsymbol : name ≠ Method.symbol.name) : Step.OneDefs ⟨name, target, doc, now, result⟩ where
  single := h.defsFirst.length_le
  first _ hd := h.defsFirst.head?_eq hd
  defs heq := absurd heq hdefs
  symbol heq := absurd heq hsymbol

end Placed

/-- The definitions of a document, as they are found or made. -/
structure Defined (doc now : Document) (d : NodeId) : Prop where
  placed : Placed now d
  eq_singleton : now.definitions = [d]
  subset : doc.definitions ⊆ [d]
  children_eq : now.children d = doc.children d

/-- **Definitions are found in front, or made there.** -/
theorem defs_defined (h : Placed doc id) : Defined doc (defs doc).1 (defs doc).2 := by
  have hdoc := h.reachable.wellFormed
  rw [defs]
  split
  · next d hfound =>
    have htag : doc.tag? d = some "defs" := by simpa using List.find?_some hfound
    have hd : d ∈ doc.definitions :=
      Document.mem_definitions.2 ⟨List.mem_of_find?_eq_some hfound, htag⟩
    have hsingle := (h.defsFirst.eq_singleton hd).1
    exact ⟨⟨h.reachable, h.defsFirst, Document.lt_of_tag? htag⟩, hsingle,
      hsingle ▸ List.Subset.refl _, rfl⟩
  · next hnone =>
    have hnone : ∀ child ∈ doc.children Document.root, doc.tag? child ≠ some "defs" :=
      fun child hchild => by simpa using List.find?_eq_none.1 hnone child hchild
    have hroot := hdoc.root_lt
    have hfirst := Document.DefsFirst.prependElement hdoc hnone "defs"
    have hd : doc.nodes.size ∈ (doc.prependElement Document.root "defs").1.definitions := by
      refine Document.mem_definitions.2 ⟨?_, ?_⟩
      · rw [Document.children_prependElement hroot, if_pos rfl]
        exact List.mem_cons_self
      · rw [Document.tag?_eq_bind, Document.getElem?_prependElement_new hroot]
        rfl
    refine ⟨⟨h.reachable.prependElement hroot "defs", hfirst, ?_⟩, (hfirst.eq_singleton hd).1, ?_, ?_⟩
    · rw [Document.size_prependElement]
      exact Nat.lt_succ_self _
    · rw [Document.definitions_eq_nil hnone]
      exact List.nil_subset _
    · exact (Document.children_prependElement hroot "defs" _).trans
        (if_neg (Nat.ne_of_gt hroot))

theorem Defined.oneDefs (h : Defined doc now result) (hsymbol : name ≠ Method.symbol.name) :
    Step.OneDefs ⟨name, target, doc, now, result⟩ where
  single := h.placed.defsFirst.length_le
  first _ hd := h.placed.defsFirst.head?_eq hd
  defs _ := ⟨h.eq_singleton, h.subset⟩
  symbol heq := absurd heq hsymbol

/-- **A symbol comes below the definitions**, behind what is there. -/
theorem Defined.symbol (h : Defined doc now id) :
    Placed (now.appendElement id "symbol").1 (now.appendElement id "symbol").2 ∧
      (now.appendElement id "symbol").1.definitions = [id] ∧
      (now.appendElement id "symbol").1.children id
        = doc.children id ++ [(now.appendElement id "symbol").2] ∧
      (now.appendElement id "symbol").1.tag? (now.appendElement id "symbol").2 = some "symbol" := by
  have hplaced := Placed.keepsNodes.appendElement h.placed (show "symbol" ≠ "defs" by decide)
  have hchange := Document.Changes.pushNode now h.placed.lt (.element "symbol" [])
  obtain ⟨hchild, htag⟩ : now.IsDefs id :=
    Document.mem_definitions.1 (h.eq_singleton ▸ List.mem_singleton_self id)
  have hroot : id ≠ Document.root :=
    Nat.ne_of_gt (h.placed.reachable.wellFormed.children_after hchild).1
  have hd : id ∈ (now.appendElement id "symbol").1.definitions := by
    refine Document.mem_definitions.2 ⟨?_, (hchange.tag?_eq id h.placed.lt).trans htag⟩
    rw [Document.appendElement, Document.children_pushNode h.placed.lt, if_neg (Ne.symm hroot)]
    exact hchild
  refine ⟨hplaced, (hplaced.defsFirst.eq_singleton hd).1, ?_, ?_⟩
  · rw [Document.appendElement, Document.children_pushNode h.placed.lt, if_pos rfl, h.children_eq]
    rfl
  · rw [Document.tag?_eq_bind]
    exact congrArg (Option.bind · _) (Document.getElem?_pushNode_new h.placed.lt _)

/-! ## One step

By cases on the method.  Most methods draw on their target; `defs` and `symbol` find or make the
definitions; the two methods that clear leave a list of children empty; and an import brings
whatever it brings. -/

/-- The method `element` makes an element of the tag that it is given. -/
theorem tag?_apply_element (hid : id < doc.nodes.size) {args : List Arg} {tag : String}
    (htag : textArg .element args.head? = .ok tag) :
    Gives (apply doc id .element args) fun answer => answer.1.tag? answer.2 = some tag := by
  have hkeeps : KeepsAttrs fun next node => next.tag? node = some tag :=
    ⟨fun h _ _ => (Document.tag?_modifyAttrs _ _ _ _).trans h,
      fun h _ => (Document.tag?_modifyAttrs _ _ _ _).trans h⟩
  have hnew : (doc.appendElement id tag).1.tag? (doc.appendElement id tag).2 = some tag := by
    rw [Document.tag?_eq_bind]
    exact congrArg (Option.bind · _) (Document.getElem?_pushNode_new hid _)
  rw [apply.eq_def]
  dsimp only
  refine .bind (p := fun other => other = tag)
    (fun other hother => Except.ok.inj (hother.symm.trans htag)) fun other hother => ?_
  subst hother
  split
  · exact .ok (hkeeps.setMap hnew (fun key => key) _)
  · exact .ok hnew

theorem ne_name {method other : Method} (hmethod : Method.ofName? name = some method)
    (hother : Method.ofName? other.name = some other) (hne : method ≠ other) :
    name ≠ other.name := by
  rintro rfl
  exact hne (Option.some.inj (hmethod.symm.trans hother))

/-- An import keeps the definitions in front, if it does not bring some to the root. -/
theorem Placed.graftAll (h : Placed doc id)
    (hperform : (runFrom (perform easel doc id name raw) s).1 = .ok (now, result))
    {branches : List Branch} (hnow : now = doc.graftAll id branches)
    (hbrings : id = Document.root → ∀ child ∈ now.children Document.root,
      child ∉ doc.children Document.root → now.tag? child ≠ some "defs") : Placed now result := by
  have hkept := Strict.perform_kept easel h.reachable h.lt name raw s (now, result) hperform
  have hgrows : Document.Grows doc id now := hnow ▸ Document.graftAll_grows h.lt branches
  exact ⟨hkept.reachable, h.defsFirst.grows h.reachable.wellFormed h.lt hgrows hbrings, hkept.lt⟩

/-- **A step keeps the definitions in front**, as long as it adds none in another way. -/
theorem perform_oneDefs (h : Placed doc id)
    (hperform : (runFrom (perform easel doc id name raw) s).1 = .ok (now, result))
    (hadds : ¬Step.AddsDefs ⟨name, id, doc, now, result⟩) :
    Placed now result ∧ Step.OneDefs ⟨name, id, doc, now, result⟩ := by
  obtain ⟨method, hmethod, -, ⟨himport, -, branches, -, hnow⟩ | ⟨args, happly⟩⟩ :=
    perform_does easel doc id name raw s (now, result) hperform
  -- an imported drawing brings in its own elements
  · have hname : Method.importDrawing.name = name := by
      simpa [himport] using List.find?_some hmethod
    have hplaced : Placed now result := h.graftAll hperform hnow
      fun hroot child hchild hnew htag =>
        hadds (.inr ⟨hname.symm, hroot, child, hchild, hnew, htag⟩)
    exact ⟨hplaced, hplaced.oneDefs (hname ▸ by decide) (hname ▸ by decide)⟩
  -- any other method, of which two make the definitions and two clear their target
  · have hname : method.name = name := by simpa using List.find?_some hmethod
    have hdefined := defs_defined h
    by_cases hdefs : method = .defs
    · subst hdefs
      have hanswer : defs doc = (now, result) := Except.ok.inj happly
      rw [hanswer] at hdefined
      exact ⟨hdefined.placed, hdefined.oneDefs (hname ▸ by decide)⟩
    by_cases hsymbol : method = .symbol
    · subst hsymbol
      have hanswer : (defs doc).1.appendElement (defs doc).2 "symbol" = (now, result) :=
        Except.ok.inj happly
      have hsymbol := hdefined.symbol
      rw [hanswer] at hsymbol
      obtain ⟨hplaced, hsingle, hchildren, htag⟩ := hsymbol
      exact ⟨hplaced, hplaced.defsFirst.length_le, fun _ hd => hplaced.defsFirst.head?_eq hd,
        fun heq => absurd (hname.trans heq) (by decide),
        fun _ => ⟨_, hsingle, hdefined.subset, hchildren, htag⟩⟩
    have hplaced : Placed now result := by
      by_cases hclears : method = .plain ∨ method = .clear
      · rcases hclears with rfl | rfl
        · cases Except.ok.inj happly
          exact Placed.keepsNodes.writeOpt h.clear _
        · cases Except.ok.inj happly
          exact h.clear
      · refine Placed.keepsNodes.apply h method args (by simp_all) ?_ (now, result) happly
        -- `element` makes what it is told, and a `defs` would be one that the step adds
        rintro rfl tag htag heq
        exact hadds (.inl ⟨hname.symm, heq ▸ tag?_apply_element h.lt htag _ happly⟩)
    exact ⟨hplaced, hplaced.oneDefs (ne_name hmethod (by decide) hdefs)
      (ne_name hmethod (by decide) hsymbol)⟩

/-! ## All steps

By induction on the list of steps.  Where one step ends the next one starts, so the invariant is
handed on from one to the other. -/

/-- **Steps one after the other keep the definitions in front**, by induction on them. -/
theorem Leads.oneDefs {made : List Step} (h : Leads easel doc made now) (hdoc : doc.Reachable)
    (hfirst : doc.DefsFirst) (hadds : ∀ step ∈ made, ¬step.AddsDefs) :
    ∀ step ∈ made, step.OneDefs := by
  induction h with
  | done => simp
  | attr name value h ih =>
    exact ih (hdoc.setAttr Document.root name value) (hfirst.modifyAttrs _ _) hadds
  | step hbefore hdone h ih =>
    subst hbefore
    obtain ⟨raw, s, hperform⟩ := hdone.performed
    obtain ⟨hstep, hrest⟩ := List.forall_mem_cons.1 hadds
    obtain ⟨hplaced, hone⟩ := perform_oneDefs ⟨hdoc, hfirst, hdone.lt⟩ hperform hstep
    exact List.forall_mem_cons.2 ⟨hone, ih hplaced.reachable hplaced.defsFirst hrest⟩

/-- **The definitions of a scene are one element in front.**  The steps of a scene are those of its
drawing: they lead from the empty document to the one that is drawn.  If none of them adds an element
for definitions by its tag, or to the root by an import, then after each step there is at most one
at the root, and it is the first child.  A call of `defs` answers with it, and a call of `symbol`
puts one symbol below it and answers with that, on whichever node the call is. -/
theorem steps_oneDefs (easel : Easel (StateM σ) ε) (scene : Scene) (s : σ)
    (hadds : ∀ step ∈ steps easel scene s, ¬step.AddsDefs) :
    Arrives easel (Document.ofSettings easel.settings) (draw easel scene) s (steps easel scene s)
        (fun doc => doc) ∧
      ∀ step ∈ steps easel scene s, step.OneDefs := by
  obtain ⟨now, hlead, hdrawn⟩ := steps_arrive easel scene s
  exact ⟨⟨now, hlead, hdrawn⟩, hlead.oneDefs (Document.ofSettings_reachable easel.settings)
    (Document.ofSettings_defsFirst easel.settings) hadds⟩

/-- A scene that defines a symbol from within a symbol, cuts both off, and asks for definitions
again. -/
def symbolScene : Scene where
  entries :=
    [("shapes", .object [("rect", .null), ("symbol", .object [("symbol", .null),
        ("group", .object [("group", .null), ("symbol", .null)])])]),
      ("again", .object [("clear", .null), ("group", .object [("group", .null), ("defs", .null)])])]

theorem symbolScene_steps_oneDefs :
    (steps sameEasel symbolScene ()).map Step.name
        = ["rect", "symbol", "group", "symbol", "clear", "group", "defs"] ∧
      (∀ step ∈ steps sameEasel symbolScene (), ¬step.AddsDefs) ∧
      Arrives sameEasel (Document.ofSettings sameEasel.settings) (draw sameEasel symbolScene) ()
        (steps sameEasel symbolScene ()) (fun doc => doc) ∧
      ∀ step ∈ steps sameEasel symbolScene (), step.OneDefs := by
  have hadds : ∀ step ∈ steps sameEasel symbolScene (), ¬step.AddsDefs := by
    simp only [Step.AddsDefs]
    with_unfolding_all decide
  exact ⟨by with_unfolding_all rfl, hadds, steps_oneDefs sameEasel symbolScene () hadds⟩

end Scene
end Frontispiece
