import Frontispiece.Proofs.Drawing.Copy
import Frontispiece.Proofs.Scene.Import

/-!
# What an import leaves behind

An import adds the drawing that it asks for to its target and does nothing else, and an import that
fails does nothing at all.  `perform` answers with a new document, so of it there is nothing to say in
the second case; what counts there is a document that is written in its place, node after node, as
`importHeld` does it.

## What is here

* `Easel.Asks` — a call of an import gets to the studio, with this name.
* `perform_answered`, `perform_refused`, `perform_unreadable` — what becomes of the answer.
* `perform_unasked`, `perform_import_ok` — an import that does not get to the studio fails, and one
  that succeeds had a drawing.
* `importHeld` — an import into a document that is held, and `runHeld_importHeld`, which ties it to
  the import that answers with a document.
* `import_appends` — what an import does to a document.

The program changes a document in place, and the model answers with a new one.  For an error this
makes a difference: the model forgets the document, while in the program it is still there and could
have been half changed.  To say that it is not, the import is written once more over a document that
is held while it runs (`importHeld`), and shown to be the import of the model with the document put
back.
-/

set_option autoImplicit false

namespace Frontispiece
namespace Scene

open Drawing (Document NodeId Branch)

variable {σ ε α β : Type}

/-! ## Imports that get to the studio

An import has several ways to be refused before anything is asked for: its name, its arguments, its
target, the chain.  `Easel.Asks` is that it has none of them, and the lemmas say what comes of each
answer. -/

/-- A call of an import asks this studio for the drawing of a name, which is new on the chain. -/
structure Easel.Asks (easel : Easel (StateM σ) ε) (raw : List Json) (studio : Studio (StateM σ) ε)
    (name : String) : Prop where
  provided : easel.studio = some studio
  named : importName? Method.importDrawing.name raw = some name
  fresh : name ∉ easel.chain.names

section

variable {easel : Easel (StateM σ) ε} {studio : Studio (StateM σ) ε} {doc now : Document}
  {target result : NodeId} {raw : List Json} {name markup : String} {tree : Markup.Tree} {s : σ}

theorem lt_of_isContainer (htarget : doc.isContainer target = true) :
    target < doc.nodes.size := by
  rw [Document.isContainer] at htarget
  cases htag : doc.tag? target with
  | none => simp [htag] at htarget
  | some tag => exact Document.lt_of_tag? htag

theorem accepts_import (htarget : doc.isContainer target = true) :
    accepts doc target .importDrawing = true := htarget

/-- An import that gets to the studio goes on with its answer. -/
theorem runFrom_perform (htarget : doc.isContainer target = true)
    (hasks : easel.Asks raw studio name) :
    runFrom (perform easel doc target Method.importDrawing.name raw) s
      = runFrom (receive studio doc target name (studio.drawing name (easel.chain.push name) s).1)
        (studio.drawing name (easel.chain.push name) s).2 := by
  rw [perform_import easel doc target (accepts_import htarget) hasks.named,
    importInto_new easel doc target rfl hasks.fresh, request, hasks.provided]
  exact runFrom_bind _ _ s

/-- **A drawing that can be read is imported.** -/
theorem perform_answered (htarget : doc.isContainer target = true)
    (hasks : easel.Asks raw studio name)
    (hanswer : (studio.drawing name (easel.chain.push name) s).1 = .ok markup)
    (htree : Markup.parseSvg markup.toList = .ok tree) :
    (runFrom (perform easel doc target Method.importDrawing.name raw) s).1
      = .ok (doc.graftAll target (Branch.ofTrees tree.children), target) := by
  rw [runFrom_perform htarget hasks, hanswer, receive, htree]
  rfl

theorem perform_refused (htarget : doc.isContainer target = true)
    (hasks : easel.Asks raw studio name) {cause : ε}
    (hanswer : (studio.drawing name (easel.chain.push name) s).1 = .error cause) :
    (runFrom (perform easel doc target Method.importDrawing.name raw) s).1
      = .error (.importFailed name cause) := by
  rw [runFrom_perform htarget hasks, hanswer]
  rfl

theorem perform_unreadable (htarget : doc.isContainer target = true)
    (hasks : easel.Asks raw studio name)
    (hanswer : (studio.drawing name (easel.chain.push name) s).1 = .ok markup)
    {cause : Markup.ParseError} (herror : Markup.parseSvg markup.toList = .error cause) :
    (runFrom (perform easel doc target Method.importDrawing.name raw) s).1
      = .error (.fault (.markup cause)) := by
  rw [runFrom_perform htarget hasks, hanswer, receive, herror]
  rfl

/-- An import that does not get to the studio fails. -/
theorem perform_unasked (htarget : doc.isContainer target = true)
    (hnone : ¬∃ studio name, easel.Asks raw studio name) :
    ∃ fault, perform easel doc target Method.importDrawing.name raw = throw (.fault fault) := by
  have haccepts := accepts_import htarget
  cases hname : importName? Method.importDrawing.name raw with
  | none =>
    have hunnamed : ¬∃ name, accepts doc target .importDrawing = true ∧
        importName? Method.importDrawing.name raw = some name := by simp [hname]
    obtain ⟨fault, hrefused, -⟩ := perform_import_refused easel doc target hunnamed
    exact ⟨fault, hrefused⟩
  | some name =>
    rw [perform_import easel doc target haccepts hname]
    by_cases hmem : name ∈ easel.chain.names
    · exact ⟨_, importInto_cycle easel doc target rfl hmem⟩
    · have hstudio : easel.studio = none := Option.eq_none_iff_forall_ne_some.2
        fun studio hstudio => hnone ⟨studio, name, hstudio, hname, hmem⟩
      rw [importInto_new easel doc target rfl hmem, request, hstudio]
      exact ⟨_, rfl⟩

/-- **An import that succeeds had a drawing**, and grafted what is below its root. -/
theorem perform_import_ok (htarget : doc.isContainer target = true)
    (hok : (runFrom (perform easel doc target Method.importDrawing.name raw) s).1
      = .ok (now, result)) :
    ∃ studio name markup tree, easel.Asks raw studio name ∧
      (studio.drawing name (easel.chain.push name) s).1 = .ok markup ∧
      Markup.parseSvg markup.toList = .ok tree ∧ result = target ∧
      now = doc.graftAll target (Branch.ofTrees tree.children) := by
  by_cases hasked : ∃ studio name, easel.Asks raw studio name
  · obtain ⟨studio, name, hasks⟩ := hasked
    cases hanswer : (studio.drawing name (easel.chain.push name) s).1 with
    | error cause =>
      rw [perform_refused htarget hasks hanswer] at hok
      cases hok
    | ok markup =>
      cases htree : Markup.parseSvg markup.toList with
      | error cause =>
        rw [perform_unreadable htarget hasks hanswer htree] at hok
        cases hok
      | ok tree =>
        rw [perform_answered htarget hasks hanswer htree] at hok
        cases hok
        exact ⟨studio, name, markup, tree, hasks, hanswer, htree, rfl, rfl⟩
  · obtain ⟨fault, hfails⟩ := perform_unasked htarget hasked
    rw [hfails] at hok
    cases hok

end

/-! ## A document that is held

The program writes into one document.  A step here answers with a document or an error, so that an
error cannot show what became of the document.  With the document held it can, and the two ways to
say it are shown to be one. -/

/-- A step of a scene on a document that is written in its place. -/
abbrev Holding (σ ε α : Type) : Type :=
  ExceptT (Error ε) (StateT Document (StateM σ)) α

/-- Running such a step on a document, from a state of the studio. -/
def runHeld (x : Holding σ ε α) (doc : Document) (s : σ) : (Except (Error ε) α × Document) × σ :=
  ((x.run).run doc).run s

/-- Copies of nodes of another document, one after the other. -/
def copyHeld (source : Document) (target : NodeId) : List NodeId → Holding σ ε Unit
  | [] => pure ()
  | id :: rest => do
    modify fun doc => (doc.graft target (source.branch id)).1
    copyHeld source target rest

/-- What becomes of the studio's answer, in the document that is held. -/
def receiveHeld (studio : Studio (StateM σ) ε) (target : NodeId) (name : String) :
    Except ε String → Holding σ ε NodeId
  | .error cause => throw (.importFailed name cause)
  | .ok markup =>
    match Markup.parseSvg markup.toList with
    | .error cause => throw (.fault (.markup cause))
    | .ok tree => do
      let imported := Document.ofTree tree
      copyHeld imported target (imported.children Document.root)
      let doc ← get
      studio.imported name (doc.describe target)
      pure target

/-- What an import does once its name is on the chain, in the document that is held. -/
def requestHeld (easel : Easel (StateM σ) ε) (target : NodeId) (name : String)
    (chain : ImportChain) : Holding σ ε NodeId := do
  let doc ← get
  match easel.studio with
  | none =>
    let node := doc.describe target ++ " (no importer configured)"
    throw (.fault (.unsupportedMethod "import" node))
  | some studio => do
    let answer ← studio.drawing name chain
    receiveHeld studio target name answer

/-- A call of an import on a node of the document that is held. -/
def importHeld (easel : Easel (StateM σ) ε) (target : NodeId) (raw : List Json) :
    Holding σ ε NodeId := do
  let doc ← get
  if !accepts doc target .importDrawing then
    throw (.fault (.unsupportedMethod Method.importDrawing.name (doc.describe target)))
  else
    match Method.importDrawing.adapt raw with
    | .error fault =>
      throw (.fault (.invalidArguments Method.importDrawing.name fault.message))
    | .ok args =>
      match args.head?.bind Arg.text? with
      | none => throw (.fault (.invalidArguments "import" "expected a template name"))
      | some name =>
        match easel.chain.enter name with
        | .error fault => throw (.fault fault)
        | .ok chain => requestHeld easel target name chain

/-- What is left of a document that is held when the step answers with a new one. -/
def leave (doc : Document) :
    Except (Error ε) (Document × α) × σ → (Except (Error ε) α × Document) × σ
  | (.ok (now, a), s) => ((.ok a, now), s)
  | (.error e, s) => ((.error e, doc), s)

theorem leave_ok {doc now : Document} {a : α} {run : Except (Error ε) (Document × α) × σ}
    (h : run.1 = .ok (now, a)) : (leave doc run).1 = (.ok a, now) := by
  obtain ⟨result, s⟩ := run
  subst h
  rfl

theorem leave_error {doc : Document} {e : Error ε} {run : Except (Error ε) (Document × α) × σ}
    (h : run.1 = .error e) : (leave doc run).1 = (.error e, doc) := by
  obtain ⟨result, s⟩ := run
  subst h
  rfl

theorem runHeld_copyHeld (source : Document) (target : NodeId) (f : Unit → Holding σ ε β) (s : σ) :
    ∀ (ids : List NodeId) (doc : Document), runHeld (copyHeld source target ids >>= f) doc s
      = runHeld (f ()) (doc.graftAll target (ids.map source.branch)) s
  | [], _ => rfl
  | id :: rest, doc =>
    runHeld_copyHeld source target f s rest (doc.graft target (source.branch id)).1

/-- The children of the root of a drawing are the branches that are grafted. -/
theorem branches_ofTree {markup : List Char} {tree : Markup.Tree}
    (htree : Markup.parseSvg markup = .ok tree) :
    ((Document.ofTree tree).children Document.root).map (Document.ofTree tree).branch
      = Branch.ofTrees tree.children := by
  obtain ⟨attrs, children, rfl⟩ := Markup.exists_of_parseSvg htree
  obtain ⟨first, hholds⟩ := Document.ofTree_holds (.element "svg" attrs children)
  exact (Document.wellFormed_ofTree (Markup.parseSvg_readable htree)).branches_of_holdsAll hholds

/-- With the document held, a drawing is received as without, and the document stays if it cannot be
read. -/
theorem runHeld_receiveHeld (studio : Studio (StateM σ) ε) (doc : Document) (target : NodeId)
    (name : String) (answer : Except ε String) (s : σ) :
    runHeld (receiveHeld studio target name answer) doc s
      = leave doc (runFrom (receive studio doc target name answer) s) := by
  cases answer with
  | error cause => rfl
  | ok markup =>
    rw [receiveHeld, receive]
    cases htree : Markup.parseSvg markup.toList with
    | error cause => rfl
    | ok tree =>
      dsimp only
      rw [runHeld_copyHeld, branches_ofTree htree]
      rfl

/-- So it is with a request. -/
theorem runHeld_requestHeld (easel : Easel (StateM σ) ε) (doc : Document) (target : NodeId)
    (name : String) (chain : ImportChain) (s : σ) :
    runHeld (requestHeld easel target name chain) doc s
      = leave doc (runFrom (request easel doc target name chain) s) := by
  rw [requestHeld, request]
  cases easel.studio with
  | none => rfl
  | some studio =>
    dsimp only
    rw [runFrom_bind]
    exact runHeld_receiveHeld studio doc target name (studio.drawing name chain s).1 _

/-- **A document that is held is written when the import succeeds, and stays as it is otherwise.** -/
theorem runHeld_importHeld (easel : Easel (StateM σ) ε) (doc : Document) (target : NodeId)
    (raw : List Json) (s : σ) :
    runHeld (importHeld easel target raw) doc s
      = leave doc (runFrom (perform easel doc target Method.importDrawing.name raw) s) := by
  have hmethod : Method.ofName? Method.importDrawing.name = some .importDrawing := by decide
  show runHeld (if _ then _ else _) doc s = _
  rw [perform, hmethod]
  dsimp only
  cases haccepts : accepts doc target .importDrawing with
  | false => rfl
  | true =>
    cases hadapt : Method.importDrawing.adapt raw with
    | error fault => rfl
    | ok args =>
      show _ = leave doc (runFrom (importInto easel doc target args) s)
      cases hname : args.head?.bind Arg.text? with
      | none =>
        rw [importInto_unnamed easel doc target hname]
        simp only [hname]
        rfl
      | some name =>
        rw [importInto_named easel doc target hname]
        simp only [hname]
        cases hchain : easel.chain.enter name with
        | error fault => rfl
        | ok chain => exact runHeld_requestHeld easel doc target name chain s

/-! ## What an import does

The drawing is read before the first node is copied, and copying cannot fail.  So an import either
does all of it or nothing. -/

/-- **An import appends the drawing that it asks for, and nothing else.**  It is called on a node of
a reachable document that holds drawings, with any arguments, studio and chain.

1. If the studio answers with a drawing that can be read, the import succeeds.  Copies of what is
   below the root of the drawing, written like what they are copies of, become the last children of
   the target; there are no other new nodes, and the old ones are what they were.
2. An import that succeeds got such an answer, and answers with its target.
3. It fails when the studio does, and when the drawing cannot be read.
4. Of a document that is held, an import that succeeds makes the document that it answers with, and
   an import that fails leaves it unchanged. -/
theorem import_appends (easel : Easel (StateM σ) ε) {doc : Document} (hdoc : doc.Reachable)
    {target : NodeId} (htarget : doc.isContainer target = true) (raw : List Json) (s : σ) :
    let answer := (runFrom (perform easel doc target Method.importDrawing.name raw) s).1
    (∀ studio name markup tree, easel.Asks raw studio name →
      (studio.drawing name (easel.chain.push name) s).1 = .ok markup →
      Markup.parseSvg markup.toList = .ok tree →
      ∃ now, answer = .ok (now, target) ∧ doc.Appends target (Document.ofTree tree) now) ∧
    (∀ now result, answer = .ok (now, result) → result = target ∧
      ∃ studio name markup tree, easel.Asks raw studio name ∧
        (studio.drawing name (easel.chain.push name) s).1 = .ok markup ∧
        Markup.parseSvg markup.toList = .ok tree) ∧
    (∀ studio name, easel.Asks raw studio name →
      (∀ cause, (studio.drawing name (easel.chain.push name) s).1 = .error cause →
        answer = .error (.importFailed name cause)) ∧
      ∀ markup cause, (studio.drawing name (easel.chain.push name) s).1 = .ok markup →
        Markup.parseSvg markup.toList = .error cause → answer = .error (.fault (.markup cause))) ∧
    (∀ now result, answer = .ok (now, result) →
      (runHeld (importHeld easel target raw) doc s).1 = (.ok result, now)) ∧
    ∀ e, answer = .error e → (runHeld (importHeld easel target raw) doc s).1 = (.error e, doc) := by
  intro answer
  refine ⟨fun studio name markup tree hasks hanswer htree => ?_, fun now result hok => ?_,
    fun studio name hasks => ⟨fun cause hanswer => perform_refused htarget hasks hanswer,
      fun markup cause hanswer herror => perform_unreadable htarget hasks hanswer herror⟩,
    fun now result hok => ?_, fun e herror => ?_⟩
  · refine ⟨_, perform_answered htarget hasks hanswer htree, ?_⟩
    obtain ⟨attrs, children, rfl⟩ := Markup.exists_of_parseSvg htree
    exact Document.appends_graftAll hdoc (lt_of_isContainer htarget)
      (Markup.parseSvg_readable htree)
  · obtain ⟨studio, name, markup, tree, hasks, hanswer, htree, hresult, -⟩ :=
      perform_import_ok htarget hok
    exact ⟨hresult, studio, name, markup, tree, hasks, hanswer, htree⟩
  · rw [runHeld_importHeld]
    exact leave_ok hok
  · rw [runHeld_importHeld]
    exact leave_error herror

/-- A studio with an icon, and with a drawing that is none. -/
def iconStudio : Studio (StateM Unit) String where
  drawing name _ :=
    if name = "icon" then pure (.ok "<svg width=\"10\"><rect/><text>x</text></svg>")
    else if name = "group" then pure (.ok "<g/>")
    else pure (.error "no such drawing")
  imported _ _ := pure ()

/-- Its easel. -/
def iconEasel : Easel (StateM Unit) String where
  settings := {}
  studio := some iconStudio
  chain := ⟨["main"]⟩

/-- A drawing with a group, into which the icon goes. -/
def iconGroup : Document :=
  ((Document.withRoot "svg").appendElement Document.root "g").1

/-- An icon is appended to a group.  A drawing that cannot be read, and one that is not there, leave
the group as it is. -/
theorem import_appends_icon : iconGroup.Reachable ∧ iconGroup.isContainer 1 = true ∧
    (∃ now tree, (runFrom (perform iconEasel iconGroup 1 "import" [.string "icon"]) ()).1
        = .ok (now, 1) ∧ iconGroup.Appends 1 (Document.ofTree tree) now ∧
      (runHeld (importHeld iconEasel 1 [.string "icon"]) iconGroup ()).1 = (.ok 1, now)) ∧
    (∃ e, (runHeld (importHeld iconEasel 1 [.string "group"]) iconGroup ()).1
      = (.error (.fault (.markup e)), iconGroup)) ∧
    (runHeld (importHeld iconEasel 1 [.string "other"]) iconGroup ()).1
      = (.error (.importFailed "other" "no such drawing"), iconGroup) := by
  have hreachable : iconGroup.Reachable := (Document.Reachable.withRoot "svg").appendElement
    (by decide) "g"
  have hcontainer : iconGroup.isContainer 1 = true := by decide
  have hasks : ∀ name, name ≠ "main" → iconEasel.Asks [.string name] iconStudio name :=
    fun name hne => ⟨rfl, rfl, by simpa [iconEasel] using hne⟩
  refine ⟨hreachable, hcontainer, ?_, ?_, ?_⟩
  · obtain ⟨hread, -, -, hheld, -⟩ :=
      import_appends iconEasel hreachable hcontainer [.string "icon"] ()
    have hparse : Markup.parseSvg "<svg width=\"10\"><rect/><text>x</text></svg>".toList
        = .ok (.element "svg" [("width", "10")] [.element "rect" [] [],
          .element "text" [] [.text "x"]]) := by rfl
    obtain ⟨now, hnow, happends⟩ := hread _ _ _ _ (hasks "icon" (by decide)) rfl hparse
    exact ⟨now, _, hnow, happends, hheld now 1 hnow⟩
  · obtain ⟨-, -, hfails, -, hheld⟩ :=
      import_appends iconEasel hreachable hcontainer [.string "group"] ()
    have hparse : ∃ e, Markup.parseSvg "<g/>".toList = .error e := ⟨_, by rfl⟩
    obtain ⟨e, hparse⟩ := hparse
    exact ⟨e, hheld _ ((hfails _ _ (hasks "group" (by decide))).2 _ e rfl hparse)⟩
  · obtain ⟨-, -, hfails, -, hheld⟩ :=
      import_appends iconEasel hreachable hcontainer [.string "other"] ()
    exact hheld _ ((hfails _ _ (hasks "other" (by decide))).1 _ rfl)

end Scene
end Frontispiece
