import Frontispiece.Build.Session
import Frontispiece.Proofs.Computation
import Frontispiece.Proofs.Files.Tree
import Frontispiece.Proofs.Scene.Import

/-!
# Rendering only tells

Until its text is there, a descriptor changes nothing that a build has: the files, the descriptors
and the publications stay as they are.  What rendering leaves behind are lines of the log, messages,
and what the compiler keeps on its desk.

## What is here

* `runFrom` — a step of a build, run from a workspace.  Of two steps the first failure counts.
* `Moves` — a step that takes each workspace to a related one.
* `Plan.Telling` — a relation that logging, telling and compiling move along.  Then drawing and
  rendering move along it, too: `Plan.renderWithin_moves`, by induction on the chains of imports.
* `Keeps` — a step that leaves files, descriptors and publications alone, which is such a relation.
  What is rendered leaves the tasks of the tools alone, too (`Workspace.Still`).

Two kinds of lemmas are found here.  Those about `runFrom` take a step of a build apart into its
parts, and are used where the order of parts matters.  Those about `Moves` are for all the proofs in
which it does not: they say of a relation that each part respects it, and then the whole does.
There are several such relations, so the induction over rendering is done once for all of them.
-/

set_option autoImplicit false

namespace Frontispiece
namespace Build

open Project (Descriptor)
open Scene (ImportChain Studio)

variable {α β : Type}

/-! ## Steps of a build

The steps of a build run on a workspace and may fail.  The lemmas take two steps apart, so that
later proofs follow the text of the program from line to line. -/

/-- Running a step of a build from a workspace. -/
def runFrom (x : Building α) (w : Workspace) : Except Failure α × Workspace :=
  x.run.run w

theorem runFrom_bind (x : Building α) (f : α → Building β) (w : Workspace) :
    runFrom (x >>= f) w = match runFrom x w with
      | (.ok a, w) => runFrom (f a) w
      | (.error e, w) => (.error e, w) := by
  rcases hfirst : runFrom x w with ⟨_ | _, w₁⟩
  · exact Computation.run_bind_error hfirst f
  · exact Computation.run_bind_ok hfirst f

/-- What succeeds does so step by step. -/
theorem ok_of_runFrom_bind {x : Building α} {f : α → Building β} {w w' : Workspace} {b : β}
    (h : runFrom (x >>= f) w = (.ok b, w')) :
    ∃ a w₁, runFrom x w = (.ok a, w₁) ∧ runFrom (f a) w₁ = (.ok b, w') :=
  Computation.ok_of_run_bind h

/-- What fails does so in its first step or after it. -/
theorem error_of_runFrom_bind {x : Building α} {f : α → Building β} {w w' : Workspace} {e : Failure}
    (h : runFrom (x >>= f) w = (.error e, w')) :
    runFrom x w = (.error e, w') ∨
      ∃ a w₁, runFrom x w = (.ok a, w₁) ∧ runFrom (f a) w₁ = (.error e, w') :=
  Computation.error_of_run_bind h

theorem runFrom_bind_ok {x : Building α} {w w₁ : Workspace} {a : α}
    (h : runFrom x w = (.ok a, w₁)) (f : α → Building β) :
    runFrom (x >>= f) w = runFrom (f a) w₁ :=
  Computation.run_bind_ok h f

/-- The first failure is the failure of the whole. -/
theorem runFrom_bind_error {x : Building α} {w w₁ : Workspace} {e : Failure}
    (h : runFrom x w = (.error e, w₁)) (f : α → Building β) :
    runFrom (x >>= f) w = (.error e, w₁) :=
  Computation.run_bind_error h f

theorem runFrom_get (w : Workspace) : runFrom get w = (.ok w, w) := rfl

theorem runFrom_modify (f : Workspace → Workspace) (w : Workspace) :
    runFrom (modify f) w = (.ok (), f w) := rfl

theorem runFrom_debugLog (text : String) (w : Workspace) :
    runFrom (debugLog text) w = (.ok (), { w with journal := w.journal.log .debug text }) := rfl

/-- A failure of a scene is a failure of the build. -/
theorem runFrom_adapt (x : ExceptT (Scene.Error Failure) Working α) (w : Workspace) :
    runFrom (x.adapt Failure.scene) w
      = ((Scene.runFrom x w).1.mapError Failure.scene, (Scene.runFrom x w).2) := rfl

/-- Two steps go on alike from one first step, if they do from what it leaves. -/
theorem runFrom_bind_congr {x : Building α} {f g : α → Building β} {w : Workspace}
    (h : ∀ a w₁, runFrom x w = (.ok a, w₁) → runFrom (f a) w₁ = runFrom (g a) w₁) :
    runFrom (x >>= f) w = runFrom (x >>= g) w := by
  rw [runFrom_bind, runFrom_bind]
  rcases hfirst : runFrom x w with ⟨e | a, w₁⟩
  · rfl
  · exact h a w₁ hfirst

/-! ## Steps that move along a relation

An invariant of a build is a relation of workspaces that each step moves along.  Reading, compiling,
telling and drawing are gone through once, for any such relation. -/

/-- A step that takes each workspace to a related one, whether it succeeds or not. -/
def Moves (R : Workspace → Workspace → Prop) (x : Building α) : Prop :=
  ∀ w : Workspace, R w (runFrom x w).2

theorem published_tell (console : Console) (j : Journal) (message : Message) :
    (j.tell console message).published = j.published := by
  cases console <;> rfl

theorem published_tellAll (console : Console) : ∀ (messages : List Message) (j : Journal),
    (j.tellAll console messages).published = j.published
  | [], _ => rfl
  | message :: rest, j =>
    (published_tellAll console rest (j.tell console message)).trans (published_tell console j message)

theorem published_log_all (level : Level) : ∀ (lines : List String) (j : Journal),
    (lines.foldl (fun j line => j.log level line) j).published = j.published
  | [], _ => rfl
  | line :: rest, j => published_log_all level rest (j.log level line)

/-- A relation of workspaces that does not mind what is told, nor what the compiler does. -/
structure Plan.Telling (p : Plan) (R : Workspace → Workspace → Prop) : Prop where
  refl : ∀ w, R w w
  trans : ∀ {w w' w'' : Workspace}, R w w' → R w' w'' → R w w''
  journal : ∀ (w : Workspace) (journal : Journal), journal.published = w.journal.published →
    R w { w with journal }
  compile : ∀ source data, Moves R (p.compile source data)

/-- A workspace with the desk that the compiler leaves, once its lines are in the journal. -/
def Workspace.adopt (w : Workspace) (desk : Template.Desk) : Workspace :=
  { w with
    desk := { desk with log := [] }
    journal := desk.log.reverse.foldl (fun j line => j.log .debug line) w.journal }

namespace Plan

theorem runFrom_compile (p : Plan) (source : String) (data : Json) (w : Workspace) :
    runFrom (p.compile source data) w
      = ((Template.compile p.compiler w.files source data w.desk).1.mapError .compile,
        w.adopt (Template.compile p.compiler w.files source data w.desk).2) := by
  rw [Plan.compile, runFrom_bind_ok (runFrom_get w)]
  generalize Template.compile p.compiler w.files source data w.desk = compiled
  obtain ⟨result, desk⟩ := compiled
  cases result <;> rfl

theorem runFrom_source (p : Plan) (d : Descriptor) (w : Workspace) :
    runFrom (p.source d) w
      = ((w.files.readText (p.layout.templatePath d.input)).mapError
          (.readTemplate (p.layout.templatePath d.input)), w) := by
  rw [Plan.source, runFrom_bind_ok (runFrom_get w)]
  cases w.files.readText (p.layout.templatePath d.input) <;> rfl

variable {p : Plan} {R : Workspace → Workspace → Prop}

namespace Telling

variable (h : p.Telling R)
include h

theorem pure (a : α) : Moves R (Pure.pure a : Building α) := fun w => h.refl w

theorem throw (e : Failure) : Moves R (MonadExcept.throw e : Building α) := fun w => h.refl w

theorem get : Moves R (MonadState.get : Building Workspace) := fun w => h.refl w

theorem bind {x : Building α} {f : α → Building β} (hx : Moves R x) (hf : ∀ a, Moves R (f a)) :
    Moves R (x >>= f) := by
  intro w
  have hfirst := hx w
  rw [runFrom_bind]
  generalize runFrom x w = first at hfirst
  obtain ⟨result, w₁⟩ := first
  cases result with
  | error e => exact hfirst
  | ok a => exact h.trans hfirst (hf a w₁)

theorem debugLog (text : String) : Moves R (Build.debugLog text) := fun w => h.journal w _ rfl

theorem tell (messages : List Message) : Moves R (p.tell messages) := fun w =>
  h.journal w _ (published_tellAll p.console messages w.journal)

end Telling

theorem source_moves (h : p.Telling R) (d : Descriptor) : Moves R (p.source d) := by
  rw [Plan.source]
  refine h.bind h.get fun w => ?_
  split
  · exact h.pure _
  · exact h.throw _

/-- A drawing that is imported is found or rendered. -/
theorem studio_moves (h : p.Telling R) {data : Json}
    {render : Descriptor → ImportChain → Building String}
    (hrender : ∀ d chain, Moves R (render d chain)) (name : String) (chain : ImportChain)
    (w : Workspace) :
    R w (((studio data fun d chain => (render d chain).run).drawing name chain).run w).2 := by
  simp only [studio, StateT.run_bind, StateT.run_get, pure_bind]
  cases w.templates.importable? name with
  | none => exact hrender _ chain w
  | some d =>
    dsimp only
    cases d.rendered with
    | none => exact hrender d chain w
    | some markup => exact h.journal w _ rfl

/-- **A scene draws along the relation**, if the drawings that it imports do. -/
theorem drawing_moves (h : p.Telling R) {data : Json}
    {render : Descriptor → ImportChain → Building String}
    (hrender : ∀ d chain, Moves R (render d chain)) (animations : Bool) (chain : ImportChain)
    (text : String) :
    Moves R (p.drawing (studio data fun d chain => (render d chain).run) animations chain text) := by
  rw [Plan.drawing]
  split
  · exact h.bind (h.tell _) fun _ => h.throw _
  · next scene _ =>
    intro w
    refine (Scene.render_draws _ animations scene).keeps (R w) ⟨?_, ?_⟩ w (h.refl w)
    · rintro _ ⟨⟩ name - - w' hw'
      exact h.trans hw' (studio_moves h hrender name _ w')
    · rintro _ ⟨⟩ name node w' hw'
      exact h.trans hw' (h.journal w' _ rfl)

/-- **Rendering moves along the relation**, however deep imports go. -/
theorem renderWithin_moves (h : p.Telling R) : ∀ (depth : Nat) (animations : Bool) (d : Descriptor)
    (chain : ImportChain), Moves R (p.renderWithin depth animations d chain)
  | 0, _, _, _ => h.throw _
  | depth + 1, animations, d, chain => by
    rw [renderWithin]
    refine h.bind (source_moves h d) fun source => h.bind (h.compile source d.data) fun text =>
      h.bind (h.debugLog _) fun _ => ?_
    split
    · exact h.pure text
    · exact drawing_moves h (fun d chain => renderWithin_moves h depth true d chain) animations chain
        text
    · exact h.throw _

end Plan

/-! ## Steps that only tell

Most of what happens between two files is told to the console and the log.  These relations say what
stays when nothing else happens. -/

/-- A workspace with the files, the descriptors and the publications of another. -/
structure Workspace.Same (w w' : Workspace) : Prop where
  files : w'.files = w.files
  templates : w'.templates = w.templates
  published : w'.journal.published = w.journal.published

theorem Workspace.Same.refl (w : Workspace) : w.Same w := ⟨rfl, rfl, rfl⟩

theorem Workspace.Same.trans {w w' w'' : Workspace} (h : w.Same w') (h' : w'.Same w'') :
    w.Same w'' :=
  ⟨h'.files.trans h.files, h'.templates.trans h.templates, h'.published.trans h.published⟩

/-- A workspace in which the tools have not been asked since another, either. -/
structure Workspace.Still (w w' : Workspace) : Prop where
  same : w.Same w'
  tasks : w'.tasks = w.tasks

/-- A step that leaves files, descriptors and publications alone. -/
def Keeps (x : Building α) : Prop :=
  ∀ w : Workspace, w.Same (runFrom x w).2

namespace Plan

/-- The compiler reads files, and what it says of its work goes into the journal. -/
theorem compile_keeps (p : Plan) (source : String) (data : Json) : Keeps (p.compile source data) := by
  intro w
  rw [runFrom_compile]
  exact ⟨rfl, rfl, published_log_all .debug _ w.journal⟩

/-- **Nothing that a build has is touched** by telling and compiling. -/
theorem telling_same (p : Plan) : p.Telling Workspace.Same where
  refl := .refl
  trans := .trans
  journal _ _ h := ⟨rfl, rfl, h⟩
  compile := p.compile_keeps

/-- **Nor are the tools asked.** -/
theorem telling_still (p : Plan) : p.Telling Workspace.Still where
  refl w := ⟨.refl w, rfl⟩
  trans h h' := ⟨h.same.trans h'.same, h'.tasks.trans h.tasks⟩
  journal _ _ h := ⟨⟨rfl, rfl, h⟩, rfl⟩
  compile source data w := by
    refine ⟨p.compile_keeps source data w, ?_⟩
    rw [runFrom_compile]
    rfl

end Plan
end Build
end Frontispiece
