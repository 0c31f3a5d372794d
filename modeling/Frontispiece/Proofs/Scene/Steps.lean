import Frontispiece.Proofs.Scene.Range

/-!
# The steps of a scene

The interpretation of a scene carries out methods one after the other: a call first its own method,
then those of the calls in its value on the node that it answered with.  Here the methods that are
carried out are listed, with the documents before and after each.  The list goes as far as the
interpretation gets.

## What is here

* `Step` — a method that was carried out.
* `steps` — those of a scene, by recursion on the calls.
* `Leads` — steps that were carried out one after the other, from a document to another.  What a
  step keeps is kept by a list of them, by induction on it.
* `steps_arrive` — **the steps of a scene lead to its document**, so none of them is left out.

What happens while a scene is drawn is not recorded by the program, so a statement about each step
needs a way to speak of steps.  Their list is defined by the same recursion as drawing, and it would
be worth little if it could leave steps out or make them up.  `steps_arrive` is there to exclude
this: the steps are outcomes of methods that were carried out one after the other, and the last one
leaves the document of the scene.
-/

set_option autoImplicit false

namespace Frontispiece
namespace Scene

open Drawing (Document NodeId)

variable {σ ε α β : Type}

/-- A method that was carried out on a node, and the node that it answered with. -/
structure Step where
  name : String
  target : NodeId
  before : Document
  after : Document
  result : NodeId

/-! ## Listing them

The interpretation answers with the last document only.  The list is made by the same recursion, and
each step in it is put there by running the interpretation up to it. -/

/-- The steps of a computation, and then those of what comes after it when it ends well. -/
def followed {α : Type} (first : List Step) (outcome : Except (Error ε) α × σ)
    (rest : α → σ → List Step) : List Step :=
  first ++ match outcome with
    | (.error _, _) => []
    | (.ok a, s) => rest a s

theorem followed_ok (first : List Step) (rest : α → σ → List Step) {a : α} {s : σ}
    {outcome : Except (Error ε) α × σ} (h : outcome = (.ok a, s)) :
    followed first outcome rest = first ++ rest a s := by
  rw [h]
  rfl

theorem followed_error (first : List Step) (rest : α → σ → List Step) {e : Error ε} {s : σ}
    {outcome : Except (Error ε) α × σ} (h : outcome = (.error e, s)) :
    followed first outcome rest = first := by
  rw [h]
  exact List.append_nil first

/-- The step of a method from a state of the studio, if it is carried out. -/
def performSteps (easel : Easel (StateM σ) ε) (target : NodeId) (name : String) (doc : Document)
    (s : σ) (raw : List Json) : List Step :=
  match (runFrom (perform easel doc target name raw) s).1 with
  | .error _ => []
  | .ok (after, result) => [⟨name, target, doc, after, result⟩]

mutual

/-- The steps of a call: its own, and then those of the calls on the node that it answers with. -/
def callSteps (easel : Easel (StateM σ) ε) (target : NodeId) (name : String) (doc : Document)
    (s : σ) : Json → List Step
  | .object fields =>
    let spec := Json.object fields
    let raw := arguments name spec
    followed (performSteps easel target name doc s raw)
      (runFrom (perform easel doc target name raw) s) fun (after, result) s =>
        if chains name spec then allSteps easel result (some name) after s fields else []
  | spec => performSteps easel target name doc s (arguments name spec)

/-- The steps of the calls of fields, one name left out. -/
def allSteps (easel : Easel (StateM σ) ε) (target : NodeId) (skip : Option String) (doc : Document)
    (s : σ) : List (String × Json) → List Step
  | [] => []
  | (name, spec) :: rest =>
    if skip == some name then allSteps easel target skip doc s rest
    else
      followed (callSteps easel target name doc s spec) (runFrom (call easel target name doc spec) s)
        fun (after, _) s => allSteps easel target skip after s rest

end

/-- The steps of an entry of a scene. -/
def entrySteps (easel : Easel (StateM σ) ε) (doc : Document) (s : σ) : Json → List Step
  | .object calls => allSteps easel Document.root none doc s calls
  | _ => []

/-- The steps of entries. -/
def entriesSteps (easel : Easel (StateM σ) ε) (doc : Document) (s : σ) :
    List (String × Json) → List Step
  | [] => []
  | (name, value) :: rest =>
    followed (entrySteps easel doc s value) (runFrom (drawEntry easel doc name value) s)
      fun after s => entriesSteps easel after s rest

/-- The methods that the interpretation of a scene carries out. -/
def steps (easel : Easel (StateM σ) ε) (scene : Scene) (s : σ) : List Step :=
  entriesSteps easel (Document.ofSettings easel.settings) s scene.entries

/-! ## What they lead to

That the list is complete is shown by following it: each step starts from the document in which the
one before it ended, and the last one ends with the document of the scene. -/

/-- A method was carried out on a node of its document. -/
structure Step.Done (easel : Easel (StateM σ) ε) (step : Step) : Prop where
  lt : step.target < step.before.nodes.size
  performed : ∃ raw s, (runFrom (perform easel step.before step.target step.name raw) s).1
    = .ok (step.after, step.result)

/-- Steps that were carried out lead from a document to another, when each starts where the one
before it ended.  Between them attributes of the root may be set. -/
inductive Leads (easel : Easel (StateM σ) ε) : Document → List Step → Document → Prop where
  | done (doc : Document) : Leads easel doc [] doc
  | step {doc now : Document} {step : Step} {rest : List Step} (hbefore : step.before = doc)
    (hdone : step.Done easel) (h : Leads easel step.after rest now) :
    Leads easel doc (step :: rest) now
  | attr {doc now : Document} {steps : List Step} (name value : String)
    (h : Leads easel (doc.setAttr Document.root name value) steps now) : Leads easel doc steps now

variable {easel : Easel (StateM σ) ε} {doc : Document} {target : NodeId} {s : σ} {name : String}

theorem Leads.append {middle now : Document} {first second : List Step}
    (h : Leads easel doc first middle) (hsecond : Leads easel middle second now) :
    Leads easel doc (first ++ second) now := by
  induction h with
  | done => exact hsecond
  | step hbefore hdone h ih => exact .step hbefore hdone (ih hsecond)
  | attr name value h ih => exact .attr name value (ih hsecond)

/-- The steps of a computation from a state lead from a document to that of its outcome; to any, if
it fails. -/
def Arrives (easel : Easel (StateM σ) ε) (doc : Document) (x : ExceptT (Error ε) (StateM σ) α)
    (s : σ) (steps : List Step) (document : α → Document) : Prop :=
  ∃ now, Leads easel doc steps now ∧ ∀ a, (runFrom x s).1 = .ok a → document a = now

namespace Arrives

variable {x : ExceptT (Error ε) (StateM σ) α}

theorem pure {a : α} {document : α → Document} (h : document a = doc) :
    Arrives easel doc (Pure.pure a : ExceptT (Error ε) (StateM σ) α) s [] document := by
  refine ⟨doc, .done doc, fun b hb => ?_⟩
  cases Except.ok.inj hb
  exact h

/-- One computation after another arrives where the second does, by the steps of both. -/
theorem bind {f : α → ExceptT (Error ε) (StateM σ) β} {first : List Step}
    {rest : α → σ → List Step} {middle : α → Document} {document : β → Document}
    (hx : Arrives easel doc x s first middle)
    (hf : ∀ a s', runFrom x s = (.ok a, s') →
      Arrives easel (middle a) (f a) s' (rest a s') document) :
    Arrives easel doc (x >>= f) s (followed first (runFrom x s) rest) document := by
  obtain ⟨between, hfirst, hmiddle⟩ := hx
  rcases hrun : runFrom x s with ⟨e | a, s'⟩
  · rw [followed_error first rest rfl]
    refine ⟨between, hfirst, fun b hb => ?_⟩
    rw [runFrom_bind, hrun] at hb
    cases hb
  · rw [followed_ok first rest rfl]
    obtain ⟨now, hrest, hlast⟩ := hf a s' hrun
    rw [hmiddle a (congrArg Prod.fst hrun)] at hrest
    refine ⟨now, hfirst.append hrest, fun b hb => hlast b ?_⟩
    rw [runFrom_bind, hrun] at hb
    exact hb

/-- What only changes the form of an outcome has no steps. -/
theorem map {f : α → β} {steps : List Step} {middle : α → Document} {document : β → Document}
    (hx : Arrives easel doc x s steps middle) (hf : ∀ a, document (f a) = middle a) :
    Arrives easel doc (x >>= fun a => Pure.pure (f a)) s steps document := by
  obtain ⟨now, hsteps, hmiddle⟩ := hx
  refine ⟨now, hsteps, fun b hb => ?_⟩
  obtain ⟨a, s', hfirst, hrest⟩ := Computation.ok_of_run_bind (Prod.ext hb rfl)
  cases Except.ok.inj (congrArg Prod.fst hrest)
  exact (hf a).trans (hmiddle a (congrArg Prod.fst hfirst))

end Arrives

/-- A method is one step from the document before it to the one after it. -/
theorem performSteps_arrive (h : target < doc.nodes.size) (raw : List Json) :
    Arrives easel doc (perform easel doc target name raw) s
      (performSteps easel target name doc s raw) Prod.fst := by
  rw [performSteps]
  cases hperform : (runFrom (perform easel doc target name raw) s).1 with
  | error e => exact ⟨doc, .done doc, fun _ heq => by rw [hperform] at heq; cases heq⟩
  | ok answer =>
    refine ⟨answer.1, .step rfl ⟨h, raw, s, hperform⟩ (.done _), fun other hother => ?_⟩
    rw [hperform] at hother
    cases hother
    rfl

mutual

/-- The steps of a call lead to its document, by induction on the calls in its value. -/
theorem callSteps_arrive (easel : Easel (StateM σ) ε) (name : String) : ∀ (spec : Json)
    {doc : Document} {target : NodeId} {s : σ}, doc.Reachable → target < doc.nodes.size →
    Arrives easel doc (call easel target name doc spec) s (callSteps easel target name doc s spec)
      Prod.fst
  | .object fields, doc, target, s, hdoc, h => by
    rw [call, callSteps]
    refine .bind (performSteps_arrive h _) fun (after, result) s' hperform => ?_
    have hkept := Strict.perform_kept easel hdoc h name _ s _ (congrArg Prod.fst hperform)
    dsimp only
    split
    · exact .map (allSteps_arrive easel (some name) fields hkept.reachable hkept.lt) fun _ => rfl
    · rw [pure_bind]
      exact .pure rfl
  | .null, _, _, _, _, h | .bool _, _, _, _, _, h | .number _, _, _, _, _, h
  | .string _, _, _, _, _, h | .array _, _, _, _, _, h => performSteps_arrive h _

/-- Calls one after the other arrive by the steps of all of them. -/
theorem allSteps_arrive (easel : Easel (StateM σ) ε) (skip : Option String) :
    ∀ (calls : List (String × Json)) {doc : Document} {target : NodeId} {s : σ}, doc.Reachable →
    target < doc.nodes.size → Arrives easel doc (callAll easel target skip doc calls) s
      (allSteps easel target skip doc s calls) id
  | [], _, _, _, _, _ => .pure rfl
  | (name, spec) :: rest, doc, target, s, hdoc, h => by
    rw [callAll, allSteps]
    split
    · rw [pure_bind]
      exact allSteps_arrive easel skip rest hdoc h
    · rw [map_eq_pure_bind, bind_assoc]
      refine .bind (callSteps_arrive easel name spec hdoc h) fun (after, _) s' hcall => ?_
      -- the node of the calls is still there, as the document only grows
      have hkept := Strict.call_kept easel hdoc h name spec s _ (congrArg Prod.fst hcall)
      rw [pure_bind]
      exact allSteps_arrive easel skip rest hkept.reachable (Nat.lt_of_lt_of_le h hkept.size_le)

end

/-- An entry of a scene draws on the root by the steps of its calls. -/
theorem entrySteps_arrive (easel : Easel (StateM σ) ε) (hdoc : doc.Reachable) (name : String)
    (value : Json) :
    Arrives easel doc (drawEntry easel doc name value) s (entrySteps easel doc s value) id := by
  cases value with
  | object calls => exact allSteps_arrive easel none calls hdoc hdoc.wellFormed.root_lt
  | null => exact .pure rfl
  | array items => exact ⟨doc, .done doc, fun _ heq => by cases heq⟩
  | bool _ | number _ | string _ =>
    rw [drawEntry.eq_def]
    dsimp only
    split
    · exact ⟨_, .attr name _ (.done _), fun next hnext => (Except.ok.inj hnext).symm⟩
    · exact .pure rfl

/-- So do all entries. -/
theorem entriesSteps_arrive (easel : Easel (StateM σ) ε) : ∀ (entries : List (String × Json))
    {doc : Document} {s : σ}, doc.Reachable →
    Arrives easel doc (drawEntries easel doc entries) s (entriesSteps easel doc s entries) id
  | [], _, _, _ => .pure rfl
  | (name, value) :: rest, doc, s, hdoc => by
    rw [drawEntries, entriesSteps]
    refine .bind (entrySteps_arrive easel hdoc name value) fun after s' hentry => ?_
    have hkept := Strict.drawEntry_kept easel hdoc name value s after (congrArg Prod.fst hentry)
    exact entriesSteps_arrive easel rest hkept.reachable

/-- **The steps of a scene lead to its document**, from the empty drawing. -/
theorem steps_arrive (easel : Easel (StateM σ) ε) (scene : Scene) (s : σ) :
    Arrives easel (Document.ofSettings easel.settings) (draw easel scene) s (steps easel scene s)
      id :=
  entriesSteps_arrive easel scene.entries (Document.ofSettings_reachable easel.settings)

end Scene
end Frontispiece
