import Frontispiece.Proofs.Drawing.Reader
import Frontispiece.Proofs.Scene.Frame
import Frontispiece.Proofs.Scene.Strict

/-!
# Drawing a scene stays in range

The interpretation of a scene with every access asking for what it wants: nodes of the drawing and
of the drawings that it imports, arguments of methods, coordinates of points, and the element that
the reader opened last.  An access out of range ends the whole, and no scene, studio or state of the
studio leads to one.

## What is here

* `Strict.draw` — the document of a scene, or `none` at the first access out of range.
* `Lifts` — a computation misses nothing and does what another does, to the state as well.  It
  composes.
* `importInto_lifts`, `perform_lifts`, `call_lifts`, `drawEntries_lifts` — by induction on the calls,
  with nodes of reachable documents.
* `draw_in_range` — the whole.

The interpretation is repeated here with accesses that can miss, one function for one function, and
it is shown that none does.  The reasons are of three kinds: numbers of nodes stay valid because
documents only grow, arguments are there because adaptation has counted them, and the stack of the
reader has an element whenever one is asked for because the tree builder would have refused the text
before.
-/

set_option autoImplicit false

namespace Frontispiece
namespace Scene

open Drawing (Document NodeId Branch)

namespace Strict

open Drawing.Strict

section

variable {m : Type → Type} [Monad m] {ε α : Type}

/-- What an access finds, or the end of the whole computation. -/
def demand (found : Option α) : ExceptT (Error ε) (OptionT m) α :=
  ExceptT.lift (OptionT.mk (pure found))

/-- Draws the contents of another drawing into a node. -/
def importInto (easel : Easel m ε) (doc : Document) (target : NodeId) (args : List Arg) :
    ExceptT (Error ε) (OptionT m) (Document × NodeId) := do
  let name ← liftFault <|
    match args.head?.bind Arg.text? with
    | some name => .ok name
    | none => .error (.invalidArguments "import" "expected a template name")
  let chain ← liftFault (easel.chain.enter name)
  match easel.studio with
  | none => do
    let node ← demand (describe doc target)
    throw (.fault (.unsupportedMethod "import" (node ++ " (no importer configured)")))
  | some studio =>
    match ← studio.drawing name chain with
    | .error cause => throw (.importFailed name cause)
    | .ok markup =>
      match ← demand (parseSvg markup.toList).run with
      | .error cause => throw (.fault (.markup cause))
      | .ok source => do
        let below ← demand (children source Document.root)
        let doc ← demand (graftAll source source.nodes.size doc target below)
        let node ← demand (describe doc target)
        studio.imported name node
        pure (doc, target)

/-- Whether a node takes a method. -/
def accepts (doc : Document) (target : NodeId) (method : Method) : Option Bool :=
  (tag doc target).map fun tag =>
    match method.target with
    | .container => tag.any Document.containerTags.contains
    | .text =>
      match tag with
      | some tag => ["text", "tspan", "textPath"].contains tag
      | none => false
    | .element => tag.isSome

/-- Carries out one method with its raw arguments. -/
def perform (easel : Easel m ε) (doc : Document) (target : NodeId) (name : String)
    (raw : List Json) : ExceptT (Error ε) (OptionT m) (Document × NodeId) := do
  match Method.ofName? name with
  | none => do
    let node ← demand (describe doc target)
    throw (.fault (.unknownMethod name node))
  | some method => do
    let accepted ← demand (accepts doc target method)
    if !accepted then do
      let node ← demand (describe doc target)
      throw (.fault (.unsupportedMethod name node))
    else
      match ← demand (adapt method raw).run with
      | .error fault => throw (.fault (.invalidArguments name fault.message))
      | .ok args =>
        if method.awaits then importInto easel doc target args
        else do
          let result ← demand (apply doc target method args).run
          liftFault result

mutual

/-- A call on a node, and then the calls on the node it answers with. -/
def call (easel : Easel m ε) (target : NodeId) (name : String) (doc : Document) :
    Json → ExceptT (Error ε) (OptionT m) (Document × NodeId)
  | .object fields => do
    let spec := Json.object fields
    let (doc, result) ← perform easel doc target name (arguments name spec)
    let doc ← if chains name spec then callAll easel result (some name) doc fields else pure doc
    pure (doc, result)
  | spec => perform easel doc target name (arguments name spec)

/-- The calls of fields on a node in order, one name left out. -/
def callAll (easel : Easel m ε) (target : NodeId) (skip : Option String) (doc : Document) :
    List (String × Json) → ExceptT (Error ε) (OptionT m) Document
  | [] => pure doc
  | (name, spec) :: rest => do
    let doc ← if skip == some name then pure doc else (·.1) <$> call easel target name doc spec
    callAll easel target skip doc rest

end

/-- One entry of a scene. -/
def drawEntry (easel : Easel m ε) (doc : Document) (name : String) (value : Json) :
    ExceptT (Error ε) (OptionT m) Document :=
  match value with
  | .object calls => callAll easel Document.root none doc calls
  | .null => pure doc
  | .array _ => throw (.fault (.entry name))
  | value =>
    match scalarText? value with
    | some text => demand (setAttr doc Document.root name text)
    | none => pure doc

/-- Entries of a scene in order. -/
def drawEntries (easel : Easel m ε) (doc : Document) :
    List (String × Json) → ExceptT (Error ε) (OptionT m) Document
  | [] => pure doc
  | (name, value) :: rest => do
    let doc ← drawEntry easel doc name value
    drawEntries easel doc rest

/-- The document of a scene. -/
def draw (easel : Easel m ε) (scene : Scene) : ExceptT (Error ε) (OptionT m) Document := do
  let doc ← demand (ofSettings easel.settings)
  drawEntries easel doc scene.entries

end

/-! ## Computations beside each other

The same program is run with accesses that may miss and with those that do not.  Two such
computations go along with each other as long as every access finds what the other takes for
granted. -/

variable {σ ε α β : Type}

/-- What a computation with accesses gives from a state: `none` for one out of range. -/
def runStrict (x : ExceptT (Error ε) (OptionT (StateM σ)) α) (s : σ) :
    Option (Except (Error ε) α) × σ :=
  x.run.run.run s

/-- A computation misses nothing, and does what another does. -/
def Lifts (x : ExceptT (Error ε) (OptionT (StateM σ)) α) (y : ExceptT (Error ε) (StateM σ) α) :
    Prop :=
  ∀ s, runStrict x s = (some (runFrom y s).1, (runFrom y s).2)

/-- One strict computation after another, which misses something if either does. -/
theorem runStrict_bind (x : ExceptT (Error ε) (OptionT (StateM σ)) α)
    (f : α → ExceptT (Error ε) (OptionT (StateM σ)) β) (s : σ) :
    runStrict (x >>= f) s = match runStrict x s with
      | (some (.ok a), s) => runStrict (f a) s
      | (some (.error e), s) => (some (.error e), s)
      | (none, s) => (none, s) := by
  simp only [runStrict, ExceptT.run_bind, OptionT.run_bind, Option.elimM, StateT.run_bind]
  obtain ⟨found, s⟩ := x.run.run.run s
  match found with
  | none | some (.error e) | some (.ok a) => rfl

namespace Lifts

variable {x : ExceptT (Error ε) (OptionT (StateM σ)) α} {y : ExceptT (Error ε) (StateM σ) α}
  {f : α → ExceptT (Error ε) (OptionT (StateM σ)) β} {g : α → ExceptT (Error ε) (StateM σ) β}

theorem pure (a : α) : Lifts (Pure.pure a : ExceptT (Error ε) (OptionT (StateM σ)) α)
    (Pure.pure a) := fun _ => rfl

theorem throw (e : Error ε) : Lifts (MonadExcept.throw e :
    ExceptT (Error ε) (OptionT (StateM σ)) α) (MonadExcept.throw e) := fun _ => rfl

theorem liftFault (result : Except Fault α) :
    Lifts (Scene.liftFault result : ExceptT (Error ε) (OptionT (StateM σ)) α)
      (Scene.liftFault result) := by
  cases result with
  | error fault => exact throw _
  | ok a => exact pure a

/-- Computations that miss nothing may be put one after the other. -/
theorem bind (hx : Lifts x y) (hf : ∀ s a, (runFrom y s).1 = .ok a → Lifts (f a) (g a)) :
    Lifts (x >>= f) (y >>= g) := by
  intro s
  have hfirst := hx s
  have hnext := hf s
  rw [runFrom_bind]
  generalize runFrom y s = first at hfirst hnext
  obtain ⟨result, s'⟩ := first
  rw [runStrict_bind, hfirst]
  cases result with
  | error e => rfl
  | ok a => exact hnext a rfl s'

/-- What the studio does is done by both. -/
theorem studio (x : StateM σ α) : Lifts (liftM x : ExceptT (Error ε) (OptionT (StateM σ)) α)
    (liftM x) := fun _ => rfl

/-- An access in range goes on with what it found. -/
theorem access {found : Option α} {a : α} {z : ExceptT (Error ε) (StateM σ) β}
    (h : found = some a) (hf : Lifts (f a) z) : Lifts (demand found >>= f) z := by
  subst h
  exact hf

theorem last {found : Option α} {a : α} (h : found = some a) :
    Lifts (demand found : ExceptT (Error ε) (OptionT (StateM σ)) α) (Pure.pure a) := by
  subst h
  exact pure a

/-- What involves neither an access nor the studio is the same in both. -/
theorem known (result : Except Fault α)
    (hf : ∀ a, result = .ok a → Lifts (f a) (g a)) :
    Lifts (Scene.liftFault result >>= f) (Scene.liftFault result >>= g) := by
  cases result with
  | error fault => exact throw _
  | ok a => exact hf a rfl

end Lifts

/-! ## Nodes of reachable documents

A number stays in range, since documents only grow.  So the node that a call is made on is there
when it is made, and is still there for all calls that are nested in it. -/

variable {doc now : Document} {target id : NodeId}

/-- Drawing makes reachable documents, in which the old nodes still are. -/
structure Kept (doc now : Document) (id : NodeId) : Prop where
  reachable : now.Reachable
  lt : id < now.nodes.size
  size_le : doc.nodes.size ≤ now.nodes.size

theorem kept_of_ready (hdoc : doc.Reachable) (h : Ready doc target False now id) :
    Kept doc now id where
  reachable := h.drawn.reachable hdoc
  lt := h.lt
  size_le := (h.drawn.framed hdoc.wellFormed).size_le

theorem perform_kept (easel : Easel (StateM σ) ε) (hdoc : doc.Reachable)
    (hid : id < doc.nodes.size) (name : String) (raw : List Json) :
    Yields (Scene.perform easel doc id name raw) fun result => Kept doc result.1 result.2 :=
  fun s result hresult => kept_of_ready hdoc <|
    perform_ready easel hdoc.wellFormed False.elim (.start doc hid) False.elim raw s result hresult

theorem call_kept (easel : Easel (StateM σ) ε) (hdoc : doc.Reachable)
    (hid : id < doc.nodes.size) (name : String) (spec : Json) :
    Yields (Scene.call easel id name doc spec) fun result => Kept doc result.1 result.2 :=
  fun s result hresult => kept_of_ready hdoc <|
    call_ready easel name spec hdoc False.elim (.start doc hid) False.elim s result hresult

theorem drawEntry_kept (easel : Easel (StateM σ) ε) (hdoc : doc.Reachable) (name : String)
    (value : Json) :
    Yields (Scene.drawEntry easel doc name value) fun next => Kept doc next Document.root :=
  fun s next hnext => kept_of_ready hdoc <|
    drawEntry_ready easel hdoc False.elim (.start doc hdoc.wellFormed.root_lt) name value False.elim
      s next hnext

/-! ## The interpretation

One lemma for each function, by induction on the calls.  An import has the most to be checked: the
text is read with a stack, and the copy reads one document and writes another. -/

/-- **An import misses nothing**: neither in the text that is read, nor in the two documents. -/
theorem importInto_lifts (easel : Easel (StateM σ) ε) (hid : id < doc.nodes.size)
    (args : List Arg) : Lifts (importInto easel doc id args) (Scene.importInto easel doc id args) := by
  rw [importInto, Scene.importInto]
  refine .known _ fun name _ => .known _ fun chain _ => ?_
  cases easel.studio with
  | none => exact .access (describe_eq hid) (.throw _)
  | some studio =>
    refine .bind (.studio _) fun s answer _ => ?_
    cases answer with
    | error cause => exact .throw _
    | ok markup =>
      refine .access (parseSvg_eq markup.toList) ?_
      dsimp only
      cases Markup.parseSvg markup.toList with
      | error cause => exact .throw _
      | ok tree =>
        obtain ⟨first, hholds⟩ := Document.ofTree_holds tree
        have hcopy : graftAll (Document.ofTree tree) (Document.ofTree tree).nodes.size doc id
            ((Document.ofTree tree).children Document.root)
            = some (doc.graftAll id (Branch.ofTrees tree.children)) :=
          graftAll_of_holds hholds (Nat.le_add_left _ _) hid
        have hgrown : id < (doc.graftAll id (Branch.ofTrees tree.children)).nodes.size :=
          Nat.lt_of_lt_of_le hid (Document.graftAll_grows hid _).size_le
        exact .access (children_eq (Document.root_lt_ofTree tree)) <| .access hcopy <|
          .access (describe_eq hgrown) <| .bind (.studio _) fun _ _ _ => .pure _

/-- Whether a node accepts a method is read from its tag, which is there. -/
theorem accepts_eq (hid : id < doc.nodes.size) (method : Method) :
    accepts doc id method = some (Scene.accepts doc id method) := by
  rw [accepts, tag_eq hid, Option.map_some, Scene.accepts]
  cases method.target with
  | container => rfl
  | element => rfl
  | text =>
    cases doc.tag? id with
    | none => rfl
    | some tag => rfl

/-- **A method misses nothing**, neither its node nor its arguments. -/
theorem perform_lifts (easel : Easel (StateM σ) ε) (hdoc : doc.Reachable)
    (hid : id < doc.nodes.size) (name : String) (raw : List Json) :
    Lifts (perform easel doc id name raw) (Scene.perform easel doc id name raw) := by
  rw [perform, Scene.perform]
  cases Method.ofName? name with
  | none => exact .access (describe_eq hid) (.throw _)
  | some method =>
    refine .access (accepts_eq hid method) ?_
    dsimp only
    split
    · exact .access (describe_eq hid) (.throw _)
    · refine .access (adapt_answers method raw) ?_
      cases hargs : method.adapt raw with
      | error fault => exact .throw _
      | ok args =>
        dsimp only
        split
        · exact importInto_lifts easel hid args
        · have hlength := (Method.adapt_length hargs).2
          exact .access (apply_answers hdoc (.start doc hid) method args hlength) (.liftFault _)

mutual

/-- **Nor does a call**, by induction on the calls in its value. -/
theorem call_lifts (easel : Easel (StateM σ) ε) (name : String) : ∀ (spec : Json)
    {doc : Document} {id : NodeId}, doc.Reachable → id < doc.nodes.size →
    Lifts (call easel id name doc spec) (Scene.call easel id name doc spec)
  | .object fields, doc, id, hdoc, hid => by
    rw [call, Scene.call]
    refine .bind (perform_lifts easel hdoc hid name _) fun s (next, result) hresult => ?_
    have hkept := perform_kept easel hdoc hid name _ s _ hresult
    dsimp only at hkept ⊢
    split
    · exact .bind (callAll_lifts easel (some name) fields hkept.reachable hkept.lt)
        fun _ _ _ => .pure _
    · exact .bind (.pure _) fun _ _ _ => .pure _
  | .null, _, _, hdoc, hid | .bool _, _, _, hdoc, hid | .number _, _, _, hdoc, hid
  | .string _, _, _, hdoc, hid | .array _, _, _, hdoc, hid => perform_lifts easel hdoc hid name _

/-- Calls one after the other miss nothing, since each leaves its node in place. -/
theorem callAll_lifts (easel : Easel (StateM σ) ε) (skip : Option String) :
    ∀ (calls : List (String × Json)) {doc : Document} {id : NodeId}, doc.Reachable →
    id < doc.nodes.size →
    Lifts (callAll easel id skip doc calls) (Scene.callAll easel id skip doc calls)
  | [], _, _, _, _ => .pure _
  | (name, spec) :: rest, doc, id, hdoc, hid => by
    rw [callAll, Scene.callAll]
    split
    · rw [pure_bind, pure_bind]
      exact callAll_lifts easel skip rest hdoc hid
    · rw [map_eq_pure_bind, map_eq_pure_bind, bind_assoc, bind_assoc]
      refine .bind (call_lifts easel name spec hdoc hid) fun s (next, result) hresult => ?_
      have hkept := call_kept easel hdoc hid name spec s _ hresult
      rw [pure_bind, pure_bind]
      exact callAll_lifts easel skip rest hkept.reachable (Nat.lt_of_lt_of_le hid hkept.size_le)

end

/-- An entry of a scene is drawn on the root, which is always there. -/
theorem drawEntry_lifts (easel : Easel (StateM σ) ε) (hdoc : doc.Reachable) (name : String)
    (value : Json) : Lifts (drawEntry easel doc name value) (Scene.drawEntry easel doc name value) := by
  cases value with
  | object calls => exact callAll_lifts easel none calls hdoc hdoc.wellFormed.root_lt
  | null => exact .pure _
  | array items => exact .throw _
  | bool _ | number _ | string _ =>
    rw [drawEntry.eq_def, Scene.drawEntry.eq_def]
    dsimp only
    generalize scalarText? _ = text
    cases text with
    | none => exact .pure _
    | some text => exact .last (setAttr_eq hdoc.wellFormed.root_lt name text)

theorem drawEntries_lifts (easel : Easel (StateM σ) ε) : ∀ (entries : List (String × Json))
    {doc : Document}, doc.Reachable →
    Lifts (drawEntries easel doc entries) (Scene.drawEntries easel doc entries)
  | [], _, _ => .pure _
  | (name, value) :: rest, doc, hdoc => by
    refine .bind (drawEntry_lifts easel hdoc name value) fun s next hnext => ?_
    exact drawEntries_lifts easel rest (drawEntry_kept easel hdoc name value s next hnext).reachable

/-- **No scene leads out of range.** -/
theorem draw_lifts (easel : Easel (StateM σ) ε) (scene : Scene) :
    Lifts (draw easel scene) (Scene.draw easel scene) :=
  .access (ofSettings_eq easel.settings) <|
    drawEntries_lifts easel scene.entries (Document.ofSettings_reachable easel.settings)

end Strict

variable {σ ε : Type}

/-- **Drawing a scene stays in range**, whatever the settings, the studio and the chain are.

1. With every access asking for its node or argument, every scene is drawn from every state of the
   studio to the document or the error that it is drawn to, and none is out of range.
2. Values are adapted without missing a coordinate of a point.  A method that is carried out has
   exactly as many arguments as there were values, and at least as many as it needs.
3. Every text is read into the document of its tree, or to the same error.  The element that was
   opened last is looked for only when there is one. -/
theorem draw_in_range (easel : Easel (StateM σ) ε) :
    (∀ (scene : Scene) (s : σ), Strict.runStrict (Strict.draw easel scene) s
      = (some (runFrom (draw easel scene) s).1, (runFrom (draw easel scene) s).2)) ∧
    (∀ (method : Method) (values : List Json),
      (Strict.adapt method values).run = some (method.adapt values) ∧
      ∀ args, method.adapt values = .ok args →
        args.length = values.length ∧ method.schema.required.length ≤ args.length) ∧
    (∀ markup : List Char, (Drawing.Strict.parseSvg markup).run
      = some ((Markup.parseSvg markup).map Document.ofTree)) := by
  refine ⟨fun scene s => ?_, fun method values => ⟨?_, fun args hargs => ?_⟩, fun markup => ?_⟩
  · exact Strict.draw_lifts easel scene s
  · exact Strict.adapt_answers method values
  · exact Method.adapt_length hargs
  · exact Drawing.Strict.parseSvg_eq markup

/-- A symbol is defined in a drawing with a group, and a place is two arguments. -/
theorem draw_in_range_symbol :
    (∃ doc, (Strict.runStrict (Strict.draw sameEasel ⟨groupEntries ++ laterEntries⟩) ()).1
      = some (.ok doc)) ∧
    ∃ args, Method.move.adapt [.string "10", .string "20"] = .ok args ∧ args.length = 2 ∧
      Method.move.schema.required.length ≤ args.length := by
  obtain ⟨hdraw, hadapt, -⟩ := draw_in_range sameEasel
  have hrun : ∃ doc, (runFrom (draw sameEasel ⟨groupEntries ++ laterEntries⟩) ()).1 = .ok doc :=
    ⟨_, by rfl⟩
  obtain ⟨doc, hrun⟩ := hrun
  have hargs : Method.move.adapt [.string "10", .string "20"] = .ok [.length "10", .length "20"] :=
    rfl
  refine ⟨⟨doc, ?_⟩, _, hargs, (hadapt .move _).2 _ hargs⟩
  rw [hdraw, hrun]

end Scene
end Frontispiece
