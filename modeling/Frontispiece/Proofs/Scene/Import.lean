import Frontispiece.Proofs.Computation
import Frontispiece.Scene.Interpreter
import Mathlib.Data.List.Nodup

/-!
# What a scene imports

The names that a scene imports can be read off its entries.  These are the laws of drawing that
concern imports: which drawings a studio is asked for, what happens when one was had before on the
chain, and that nothing else of a studio matters.

## What is here

* `Scene.imports` — the names that the calls of a scene import, nested calls included, in order.
* `importInto_cycle`, `importInto_new` — what an import does with a name on the chain, and with any
  other; `perform_cycle_iff` says when a call of an import finds a cycle.
* `Draws` — a computation asks its studio for nothing but the drawings of given names, and had the
  drawing of each of them when it succeeds.  It composes, and `render_draws` says it of whole
  scenes.
* `render_congr` — two studios with the same drawings for the names that can be imported draw the
  same.

A scene sees its studio through one question only.  That is why a bound on what it asks for, and a
statement that nothing else matters, have the same proof: both follow the computation and look at
the questions.  The chain is part of each question, and the names on it come from the scenes around;
a scene adds one name at a time.
-/

set_option autoImplicit false

namespace Frontispiece
namespace Scene

open Drawing (Document NodeId)

variable {σ ε α β : Type}

/-! ## The names that are imported

An import has one argument, the name, which may be written as a text, a number or a boolean.  So the
names can be read off the values of a scene, and arguments of any other form count for none. -/

/-- The name that a method with these arguments imports. -/
def importName? (method : String) : List Json → Option String
  | [value] => if method = Method.importDrawing.name then scalarText? value else none
  | _ => none

mutual

/-- The names that a call imports, with the calls on the node it answers with. -/
def callImports (method : String) : Json → List String
  | .object fields =>
    (importName? method (arguments method (.object fields))).toList
      ++ if chains method (.object fields) then allImports (some method) fields else []
  | spec => (importName? method (arguments method spec)).toList

/-- The names that calls import, one method left out. -/
def allImports (skip : Option String) : List (String × Json) → List String
  | [] => []
  | (method, spec) :: rest =>
    (if skip == some method then [] else callImports method spec) ++ allImports skip rest

end

/-- The names that an entry imports. -/
def entryImports : Json → List String
  | .object calls => allImports none calls
  | _ => []

/-- The names that a scene imports. -/
def imports (scene : Scene) : List String :=
  scene.entries.flatMap fun entry => entryImports entry.2

/-- No other method waits for a drawing. -/
theorem eq_of_awaits {name : String} {method : Method} (h : Method.ofName? name = some method)
    (hawaits : method.awaits = true) : name = Method.importDrawing.name := by
  have hname : method.name = name := by simpa using List.find?_some h
  have himport : method = .importDrawing := by simpa [Method.awaits] using hawaits
  rw [← hname, himport]

/-- No other method imports. -/
theorem importName?_of_ne {method : String} (h : method ≠ Method.importDrawing.name) :
    ∀ raw : List Json, importName? method raw = none
  | [] => rfl
  | [_] => by rw [importName?, if_neg h]
  | _ :: _ :: _ => rfl

theorem adapt_import_one (value : Json) :
    Method.importDrawing.adapt [value] = match (scalarText? value).map Arg.text with
      | some arg => .ok [arg]
      | none => .error (.shape 1 .text value) := rfl

/-- The arguments of an import are one name. -/
theorem adapt_import {raw : List Json} {name : String}
    (h : importName? Method.importDrawing.name raw = some name) :
    Method.importDrawing.adapt raw = .ok [.text name] := by
  match raw, h with
  | [value], h =>
    rw [importName?, if_pos rfl] at h
    rw [adapt_import_one, h]
    rfl

/-- An import takes no other arguments. -/
theorem adapt_import_error {raw : List Json}
    (h : importName? Method.importDrawing.name raw = none) :
    ∃ fault, Method.importDrawing.adapt raw = .error fault := by
  match raw, h with
  | [], _ => exact ⟨_, rfl⟩
  | [value], h =>
    rw [importName?, if_pos rfl] at h
    rw [adapt_import_one, h]
    exact ⟨_, rfl⟩
  | first :: second :: rest, _ =>
    exact ⟨.count ⟨[.text], []⟩ (rest.length + 1 + 1), by simp [Method.adapt, Method.schema]⟩

/-! ## One import

The chain is searched before the studio is asked.  Imports of names that are on it end there, and
for all others the chain is one longer when the studio is asked. -/

/-- The chain with one more name at its end. -/
def ImportChain.push (chain : ImportChain) (name : String) : ImportChain :=
  ⟨chain.names ++ [name]⟩

/-- A new name leaves a chain on which no name comes twice. -/
theorem ImportChain.nodup_push {chain : ImportChain} {name : String} (h : chain.names.Nodup)
    (hnew : name ∉ chain.names) : (chain.push name).names.Nodup := by
  rw [push, ← List.concat_eq_append]
  exact h.concat hnew

theorem ImportChain.enter_new {chain : ImportChain} {name : String} (h : name ∉ chain.names) :
    chain.enter name = .ok (chain.push name) := by
  have hcontains : ¬chain.contains name = true := by simpa [contains] using h
  rw [enter, if_neg hcontains]
  rfl

theorem ImportChain.enter_cycle {chain : ImportChain} {name : String} (h : name ∈ chain.names) :
    chain.enter name = .error (.importCycle (chain.push name).names) := by
  have hcontains : chain.contains name = true := by simpa [contains] using h
  rw [enter, if_pos hcontains]
  rfl

/-- What becomes of the studio's answer to an import. -/
def receive (studio : Studio (StateM σ) ε) (doc : Document) (target : NodeId) (name : String) :
    Except ε String → ExceptT (Error ε) (StateM σ) (Document × NodeId)
  | .error cause => throw (.importFailed name cause)
  | .ok markup =>
    match Markup.parseSvg markup.toList with
    | .error cause => throw (.fault (.markup cause))
    | .ok tree => do
      let doc := doc.graftAll target (Drawing.Branch.ofTrees tree.children)
      studio.imported name (doc.describe target)
      pure (doc, target)

/-- What an import does once its name is on the chain. -/
def request (easel : Easel (StateM σ) ε) (doc : Document) (target : NodeId) (name : String)
    (chain : ImportChain) : ExceptT (Error ε) (StateM σ) (Document × NodeId) :=
  match easel.studio with
  | none =>
    let node := doc.describe target ++ " (no importer configured)"
    throw (.fault (.unsupportedMethod "import" node))
  | some studio => do
    let answer ← studio.drawing name chain
    receive studio doc target name answer

section

variable (easel : Easel (StateM σ) ε) (doc : Document) (target : NodeId) {args : List Arg}
  {name : String}

theorem importInto_unnamed (hname : args.head?.bind Arg.text? = none) :
    importInto easel doc target args
      = throw (.fault (.invalidArguments "import" "expected a template name")) := by
  rw [importInto, hname]
  rfl

/-- An import enters its name into the chain, and then asks for the drawing. -/
theorem importInto_named (hname : args.head?.bind Arg.text? = some name) :
    importInto easel doc target args
      = liftFault (easel.chain.enter name) >>= request easel doc target name := by
  have hpure : ∀ f : String → ExceptT (Error ε) (StateM σ) (Document × NodeId),
      liftFault (.ok name) >>= f = f name := fun f => rfl
  rw [importInto, hname, hpure]
  refine bind_congr fun chain => ?_
  rw [request]
  cases easel.studio with
  | none => rfl
  | some studio =>
    refine bind_congr fun answer => ?_
    cases answer with
    | error cause => rfl
    | ok markup => rfl

/-- **A name on the chain is a cycle**, and the studio is not asked. -/
theorem importInto_cycle (hname : args.head?.bind Arg.text? = some name)
    (hmem : name ∈ easel.chain.names) :
    importInto easel doc target args
      = throw (.fault (.importCycle (easel.chain.push name).names)) := by
  rw [importInto_named easel doc target hname, ImportChain.enter_cycle hmem]
  rfl

/-- Any other name is asked for, with the chain that it ends. -/
theorem importInto_new (hname : args.head?.bind Arg.text? = some name)
    (hnew : name ∉ easel.chain.names) :
    importInto easel doc target args = request easel doc target name (easel.chain.push name) := by
  rw [importInto_named easel doc target hname, ImportChain.enter_new hnew]
  rfl

/-- An import whose arguments are a name. -/
theorem perform_import (haccepts : accepts doc target .importDrawing = true) {raw : List Json}
    {name : String} (hname : importName? Method.importDrawing.name raw = some name) :
    perform easel doc target Method.importDrawing.name raw
      = importInto easel doc target [.text name] := by
  have hmethod : Method.ofName? Method.importDrawing.name = some .importDrawing := by decide
  rw [perform, hmethod]
  simp only [haccepts, adapt_import hname, Bool.not_true, Bool.false_eq_true, if_false]
  rfl

/-- An import that is refused before its name is looked at. -/
theorem perform_import_refused {raw : List Json}
    (h : ¬∃ name, accepts doc target .importDrawing = true ∧
      importName? Method.importDrawing.name raw = some name) :
    ∃ fault, perform easel doc target Method.importDrawing.name raw = throw (.fault fault) ∧
      ∀ chain, fault ≠ .importCycle chain := by
  have hmethod : Method.ofName? Method.importDrawing.name = some .importDrawing := by decide
  rw [perform, hmethod]
  cases haccepts : accepts doc target .importDrawing with
  | false =>
    refine ⟨.unsupportedMethod Method.importDrawing.name (doc.describe target), ?_, by simp⟩
    simp [haccepts]
  | true =>
    have hnone : importName? Method.importDrawing.name raw = none :=
      Option.eq_none_iff_forall_ne_some.2 fun name hname => h ⟨name, haccepts, hname⟩
    obtain ⟨fault, hfault⟩ := adapt_import_error hnone
    refine ⟨.invalidArguments Method.importDrawing.name fault.message, ?_, by simp⟩
    simp [haccepts, hfault]

end

/-! ## Computations that draw

What a computation asks for is a set of names, fixed before it runs, of which it may use some.
`Draws` also has that every drawing was had if it succeeds, and that an invariant of the studio's
state carries through. -/

/-- Running a step of a scene from a state. -/
def runFrom (x : ExceptT (Error ε) (StateM σ) α) (s : σ) : Except (Error ε) α × σ :=
  x.run.run s

theorem runFrom_bind (x : ExceptT (Error ε) (StateM σ) α)
    (f : α → ExceptT (Error ε) (StateM σ) β) (s : σ) :
    runFrom (x >>= f) s = match runFrom x s with
      | (.ok a, s) => runFrom (f a) s
      | (.error e, s) => (.error e, s) := by
  rcases hfirst : runFrom x s with ⟨_ | _, s₁⟩
  · exact Computation.run_bind_error hfirst f
  · exact Computation.run_bind_ok hfirst f

variable {easel : Easel (StateM σ) ε} {names more : List String}

/-- `P` stays true when drawings of new names among `names` are had for the easel. -/
structure Easel.Keeps (easel : Easel (StateM σ) ε) (names : List String) (P : σ → Prop) :
    Prop where
  drawing : ∀ studio, easel.studio = some studio → ∀ name ∈ names, name ∉ easel.chain.names →
    ∀ s, P s → P (studio.drawing name (easel.chain.push name) s).2
  imported : ∀ studio, easel.studio = some studio → ∀ name node s, P s →
    P (studio.imported name node s).2

theorem Easel.Keeps.mono {P : σ → Prop} (h : easel.Keeps names P)
    (hsub : ∀ name ∈ more, name ∈ names) : easel.Keeps more P where
  drawing studio hstudio name hname := h.drawing studio hstudio name (hsub name hname)
  imported := h.imported

/-- The drawing of a new name was had. -/
def Easel.Had (easel : Easel (StateM σ) ε) (name : String) : Prop :=
  name ∉ easel.chain.names ∧ ∃ studio, easel.studio = some studio ∧ ∃ s markup,
    (studio.drawing name (easel.chain.push name) s).1 = .ok markup

/-- The computation has nothing of its studio but drawings of new names among `names`, and if it
succeeds it had each of them. -/
structure Draws (easel : Easel (StateM σ) ε) (names : List String)
    (x : ExceptT (Error ε) (StateM σ) α) : Prop where
  keeps : ∀ P : σ → Prop, easel.Keeps names P → ∀ s, P s → P (runFrom x s).2
  had : ∀ s a, (runFrom x s).1 = .ok a → ∀ name ∈ names, easel.Had name

namespace Draws

theorem pure (a : α) : Draws easel [] (Pure.pure a) where
  keeps _ _ _ h := h
  had _ _ _ name hname := by cases hname

/-- A computation that fails may be said to draw anything. -/
theorem throw (e : Error ε) (names : List String) :
    Draws easel names (MonadExcept.throw e : ExceptT (Error ε) (StateM σ) α) where
  keeps _ _ _ h := h
  had _ _ h := by cases h

/-- One computation after another has the drawings of both. -/
theorem bind {x : ExceptT (Error ε) (StateM σ) α} {f : α → ExceptT (Error ε) (StateM σ) β}
    (hx : Draws easel names x) (hf : ∀ a, Draws easel more (f a)) :
    Draws easel (names ++ more) (x >>= f) where
  keeps P hP s h := by
    have hfirst : P (runFrom x s).2 :=
      hx.keeps P (hP.mono fun _ => List.mem_append_left more) s h
    rw [runFrom_bind]
    generalize runFrom x s = first at hfirst
    obtain ⟨result, s'⟩ := first
    cases result with
    | error e => exact hfirst
    | ok a =>
      exact (hf a).keeps P (hP.mono fun _ => List.mem_append_right names) s' hfirst
  had s b h := by
    have hfirst := hx.had s
    rw [runFrom_bind] at h
    generalize runFrom x s = first at hfirst h
    obtain ⟨result, s'⟩ := first
    cases result with
    | error e => cases h
    | ok a =>
      intro name hname
      rcases List.mem_append.1 hname with hname | hname
      · exact hfirst a rfl name hname
      · exact (hf a).had s' b h name hname

theorem liftFault (result : Except Fault α) :
    Draws easel [] (liftFault result : ExceptT (Error ε) (StateM σ) α) := by
  cases result with
  | ok a => exact pure a
  | error fault => exact throw (.fault fault) []

/-- A question to the studio, when there is nothing to go on with after a refusal. -/
theorem ask {studio : Studio (StateM σ) ε} (hstudio : easel.studio = some studio) {name : String}
    (hnew : name ∉ easel.chain.names)
    {f : Except ε String → ExceptT (Error ε) (StateM σ) α}
    (hrefused : ∀ cause, ∃ e, f (.error cause) = MonadExcept.throw e)
    (hf : ∀ markup, Draws easel [] (f (.ok markup))) :
    Draws easel [name]
      ((liftM (studio.drawing name (easel.chain.push name)) :
        ExceptT (Error ε) (StateM σ) (Except ε String)) >>= f) where
  keeps P hP s h := by
    have hanswer := hP.drawing studio hstudio name List.mem_cons_self hnew s h
    rw [runFrom_bind]
    show P (runFrom (f (studio.drawing name (easel.chain.push name) s).1) _).2
    cases (studio.drawing name (easel.chain.push name) s).1 with
    | error cause =>
      obtain ⟨e, he⟩ := hrefused cause
      rw [he]
      exact hanswer
    | ok markup =>
      exact (hf markup).keeps P (hP.mono fun _ hmem => by cases hmem) _ hanswer
  had s a h := by
    rw [runFrom_bind] at h
    change (runFrom (f (studio.drawing name (easel.chain.push name) s).1) _).1 = .ok a at h
    intro name' hname'
    rw [List.mem_singleton.1 hname']
    refine ⟨hnew, studio, hstudio, s, ?_⟩
    cases hanswer : (studio.drawing name (easel.chain.push name) s).1 with
    | error cause =>
      obtain ⟨e, he⟩ := hrefused cause
      rw [hanswer, he] at h
      cases h
    | ok markup => exact ⟨markup, rfl⟩

/-- The studio hears of an import. -/
theorem tell {studio : Studio (StateM σ) ε} (hstudio : easel.studio = some studio)
    (name node : String) (a : α) :
    Draws easel [] (do
      (studio.imported name node : ExceptT (Error ε) (StateM σ) Unit)
      Pure.pure a) where
  keeps _ hP s h := hP.imported studio hstudio name node s h
  had _ _ _ name hname := by cases hname

end Draws

/-! ## What drawing asks for

By induction on the calls, one lemma for each function of the interpretation. -/

/-- To receive a drawing asks for no other. -/
theorem receive_draws {studio : Studio (StateM σ) ε} (hstudio : easel.studio = some studio)
    (doc : Document) (target : NodeId) (name : String) : ∀ answer : Except ε String,
    Draws easel [] (receive studio doc target name answer)
  | .error _ => .throw _ _
  | .ok markup => by
    rw [receive]
    split
    · exact .throw _ _
    · exact .tell hstudio name _ _

/-- A request has the drawing that it names. -/
theorem request_draws (easel : Easel (StateM σ) ε) (doc : Document) (target : NodeId)
    {name : String} (hnew : name ∉ easel.chain.names) :
    Draws easel [name] (request easel doc target name (easel.chain.push name)) := by
  rw [request]
  cases hstudio : easel.studio with
  | none => exact .throw _ _
  | some studio =>
    exact .ask hstudio hnew (fun cause => ⟨.importFailed name cause, rfl⟩) fun markup =>
      receive_draws hstudio doc target name (.ok markup)

theorem importInto_draws (easel : Easel (StateM σ) ε) (doc : Document) (target : NodeId)
    (name : String) : Draws easel [name] (importInto easel doc target [.text name]) := by
  by_cases hmem : name ∈ easel.chain.names
  · rw [importInto_cycle easel doc target rfl hmem]
    exact .throw _ _
  · rw [importInto_new easel doc target rfl hmem]
    exact request_draws easel doc target hmem

/-- A method draws what it imports. -/
theorem perform_draws (easel : Easel (StateM σ) ε) (doc : Document) (target : NodeId)
    (name : String) (raw : List Json) :
    Draws easel (importName? name raw).toList (perform easel doc target name raw) := by
  by_cases hname : name = Method.importDrawing.name
  · rw [hname]
    by_cases hnamed : ∃ imported, accepts doc target .importDrawing = true ∧
        importName? Method.importDrawing.name raw = some imported
    · obtain ⟨imported, haccepts, himported⟩ := hnamed
      rw [perform_import easel doc target haccepts himported, himported]
      exact importInto_draws easel doc target imported
    · obtain ⟨fault, hperform, -⟩ := perform_import_refused easel doc target hnamed
      rw [hperform]
      exact .throw _ _
  · rw [importName?_of_ne hname, perform]
    cases hmethod : Method.ofName? name with
    | none => exact .throw _ _
    | some method =>
      have hawaits : ¬method.awaits = true := fun h => hname (eq_of_awaits hmethod h)
      simp only [if_neg hawaits]
      split
      · exact .throw _ _
      · cases method.adapt raw with
        | error fault => exact .throw _ _
        | ok args => exact .liftFault _

mutual

/-- **A call draws what it imports**, by induction on the calls in its value. -/
theorem call_draws (easel : Easel (StateM σ) ε) (target : NodeId) (name : String)
    (doc : Document) : ∀ spec : Json,
    Draws easel (callImports name spec) (call easel target name doc spec)
  | .object fields => by
    rw [call, callImports]
    refine (perform_draws easel doc target name _).bind fun (doc, result) => ?_
    have hrest := callAll_draws easel result (some name) doc fields
    dsimp only
    split
    · simpa using hrest.bind fun doc => Draws.pure (doc, result)
    · exact .pure _
  | .null | .bool _ | .number _ | .string _ | .array _ => by
    rw [call, callImports]
    · exact perform_draws easel doc target name _
    all_goals exact fun _ h => by cases h

/-- The same for the calls of fields. -/
theorem callAll_draws (easel : Easel (StateM σ) ε) (target : NodeId) (skip : Option String)
    (doc : Document) : ∀ calls : List (String × Json),
    Draws easel (allImports skip calls) (callAll easel target skip doc calls)
  | [] => .pure doc
  | (name, spec) :: rest => by
    rw [callAll, allImports]
    split
    · exact callAll_draws easel target skip doc rest
    · rw [map_eq_pure_bind, bind_assoc]
      refine (call_draws easel target name doc spec).bind fun (doc, _) => ?_
      rw [pure_bind]
      exact callAll_draws easel target skip doc rest

end

/-- An entry of a scene has the drawings that it names. -/
theorem drawEntry_draws (easel : Easel (StateM σ) ε) (doc : Document) (name : String)
    (value : Json) : Draws easel (entryImports value) (drawEntry easel doc name value) := by
  cases value with
  | object calls => exact callAll_draws easel Document.root none doc calls
  | null => exact .pure doc
  | array items => exact .throw _ _
  | bool _ | number _ | string _ =>
    rw [drawEntry.eq_def]
    dsimp only
    split
    · exact .pure _
    · exact .pure _

theorem drawEntries_draws (easel : Easel (StateM σ) ε) : ∀ (entries : List (String × Json))
    (doc : Document), Draws easel (entries.flatMap fun entry => entryImports entry.2)
      (drawEntries easel doc entries)
  | [], doc => .pure doc
  | (name, value) :: rest, doc =>
    (drawEntry_draws easel doc name value).bind fun doc => drawEntries_draws easel rest doc

/-- **A scene draws what it imports.** -/
theorem render_draws (easel : Easel (StateM σ) ε) (animations : Bool) (scene : Scene) :
    Draws easel scene.imports (render easel animations scene) := by
  have hdraw : Draws easel scene.imports (draw easel scene) := drawEntries_draws easel _ _
  have hrender := hdraw.bind fun doc => Draws.pure
    ((if animations then doc else doc.withoutAnimations).render easel.settings.pretty)
  rwa [List.append_nil] at hrender

/-! ## Cycles

A cycle is found by the import itself or not at all: what the studio answers is a failed drawing of
its own, whatever was wrong there. -/

section

variable (easel : Easel (StateM σ) ε) (doc : Document) (target : NodeId)

/-- Once its name is on the chain, an import finds no cycle. -/
theorem request_ne_cycle (name : String) (chain : ImportChain) (s : σ) (names : List String) :
    (runFrom (request easel doc target name chain) s).1
      ≠ .error (.fault (.importCycle names)) := by
  rw [request]
  cases easel.studio with
  | none => exact fun h => by cases h
  | some studio =>
    rw [runFrom_bind]
    show (runFrom (receive studio doc target name (studio.drawing name chain s).1) _).1 ≠ _
    cases (studio.drawing name chain s).1 with
    | error cause => exact fun h => by cases h
    | ok markup =>
      rw [receive]
      split
      · exact fun h => by cases h
      · exact fun h => by cases h

/-- **An import is a cycle when its name is on the chain**, and only then. -/
theorem perform_cycle_iff (raw : List Json) (s : σ) :
    (∃ names, (runFrom (perform easel doc target Method.importDrawing.name raw) s).1
        = .error (.fault (.importCycle names))) ↔
      accepts doc target .importDrawing = true ∧
        ∃ name ∈ easel.chain.names, importName? Method.importDrawing.name raw = some name := by
  by_cases hnamed : ∃ name, accepts doc target .importDrawing = true ∧
      importName? Method.importDrawing.name raw = some name
  · obtain ⟨name, haccepts, hname⟩ := hnamed
    rw [perform_import easel doc target haccepts hname]
    by_cases hmem : name ∈ easel.chain.names
    · rw [importInto_cycle easel doc target rfl hmem]
      exact iff_of_true ⟨_, rfl⟩ ⟨haccepts, name, hmem, hname⟩
    · rw [importInto_new easel doc target rfl hmem]
      refine iff_of_false (fun ⟨names, h⟩ => request_ne_cycle easel doc target name _ s names h) ?_
      rintro ⟨-, other, hother, heq⟩
      rw [hname] at heq
      cases heq
      exact hmem hother
  · obtain ⟨fault, hperform, hfault⟩ := perform_import_refused easel doc target hnamed
    rw [hperform]
    refine iff_of_false ?_ fun ⟨haccepts, name, _, hname⟩ => hnamed ⟨name, haccepts, hname⟩
    rintro ⟨names, hnames⟩
    cases hnames
    exact hfault names rfl

end

/-! ## What drawing depends on

Two studios with the same drawings for the same chains cannot be told apart by a scene.  It is
enough that they agree on chains that extend the one at hand. -/

/-- Two studios that have the same drawings for a chain. -/
structure Studio.Agrees (chain : ImportChain) (studio other : Studio (StateM σ) ε) : Prop where
  drawing : ∀ name, name ∉ chain.names →
    studio.drawing name (chain.push name) = other.drawing name (chain.push name)
  imported : studio.imported = other.imported

section

variable {settings : Drawing.Settings} {chain : ImportChain} {studio other : Studio (StateM σ) ε}

theorem receive_congr (h : studio.Agrees chain other) (doc : Document) (target : NodeId)
    (name : String) : receive studio doc target name = receive other doc target name := by
  funext answer
  cases answer with
  | error cause => rfl
  | ok markup => rw [receive, receive, h.imported]

/-- An import comes out the same with a studio that gives the same drawings. -/
theorem importInto_congr (h : studio.Agrees chain other) (doc : Document) (target : NodeId)
    (args : List Arg) :
    importInto ⟨settings, some studio, chain⟩ doc target args
      = importInto ⟨settings, some other, chain⟩ doc target args := by
  cases hname : args.head?.bind Arg.text? with
  | none => rw [importInto_unnamed _ doc target hname, importInto_unnamed _ doc target hname]
  | some name =>
    by_cases hmem : name ∈ chain.names
    · rw [importInto_cycle _ doc target hname hmem, importInto_cycle _ doc target hname hmem]
    · rw [importInto_new _ doc target hname hmem, importInto_new _ doc target hname hmem]
      simp only [request, receive_congr h, h.drawing name hmem]

theorem perform_congr (h : studio.Agrees chain other) (doc : Document) (target : NodeId)
    (name : String) (raw : List Json) :
    perform ⟨settings, some studio, chain⟩ doc target name raw
      = perform ⟨settings, some other, chain⟩ doc target name raw := by
  rw [perform, perform]
  simp only [importInto_congr h]

mutual

/-- So does a call, with the calls below it. -/
theorem call_congr (h : studio.Agrees chain other) (target : NodeId) (name : String)
    (doc : Document) : ∀ spec : Json,
    call ⟨settings, some studio, chain⟩ target name doc spec
      = call ⟨settings, some other, chain⟩ target name doc spec
  | .object fields => by
    have hrest : ∀ result doc, callAll ⟨settings, some studio, chain⟩ result (some name) doc fields
        = callAll ⟨settings, some other, chain⟩ result (some name) doc fields :=
      fun result doc => callAll_congr h result (some name) doc fields
    rw [call, call, perform_congr h]
    simp only [hrest]
  | .null | .bool _ | .number _ | .string _ | .array _ => perform_congr h doc target name _

/-- So do several calls. -/
theorem callAll_congr (h : studio.Agrees chain other) (target : NodeId) (skip : Option String)
    (doc : Document) : ∀ calls : List (String × Json),
    callAll ⟨settings, some studio, chain⟩ target skip doc calls
      = callAll ⟨settings, some other, chain⟩ target skip doc calls
  | [] => rfl
  | (name, spec) :: rest => by
    have hrest : ∀ doc, callAll ⟨settings, some studio, chain⟩ target skip doc rest
        = callAll ⟨settings, some other, chain⟩ target skip doc rest :=
      fun doc => callAll_congr h target skip doc rest
    rw [callAll, callAll, call_congr h target name doc spec]
    simp only [hrest]

end

theorem drawEntry_congr (h : studio.Agrees chain other) (doc : Document) (name : String)
    (value : Json) : drawEntry ⟨settings, some studio, chain⟩ doc name value
      = drawEntry ⟨settings, some other, chain⟩ doc name value := by
  cases value with
  | object calls => exact callAll_congr h Document.root none doc calls
  | null | bool _ | number _ | string _ | array _ => rfl

theorem drawEntries_congr (h : studio.Agrees chain other) : ∀ (entries : List (String × Json))
    (doc : Document), drawEntries ⟨settings, some studio, chain⟩ doc entries
      = drawEntries ⟨settings, some other, chain⟩ doc entries
  | [], _ => rfl
  | (name, value) :: rest, doc => by
    rw [drawEntries, drawEntries, drawEntry_congr h]
    simp only [drawEntries_congr h rest]

/-- **Only drawings of new names matter.** -/
theorem render_congr (h : studio.Agrees chain other) (animations : Bool) (scene : Scene) :
    render ⟨settings, some studio, chain⟩ animations scene
      = render ⟨settings, some other, chain⟩ animations scene := by
  rw [render, render, draw, draw, drawEntries_congr h]

end

end Scene
end Frontispiece
