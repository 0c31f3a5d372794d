import Frontispiece.Proofs.Scene.Import

/-!
# Studios that follow each other

A scene knows its studio by the drawings that it gets.  When a second studio gives the same drawings
as the first from related states, a scene drawn with the second follows the one drawn with the
first.  Where the first has no drawing for a reason that is excused, the scene fails for that
reason, and then nothing is said of the second.

## What is here

* `Error.Stems` — a failure of a scene whose reason is the failure of an import.
* `Studio.Refines` — two studios of which the second follows the first.
* `render_refines` — with such studios a scene drawn with the second follows the one drawn with the
  first, by induction on the calls in its entries.

Scenes are drawn in several circumstances that should not matter to them: with more fuel for imports
below, from another state of the build, or with results that are reused.  In each case there are two
studios of which one follows the other.  The induction over the calls of a scene is done here once,
for any such pair, and with errors that may be excused.
-/

set_option autoImplicit false

namespace Frontispiece
namespace Scene

open Frontispiece.Computation (Refines)
open Drawing (Document NodeId)

variable {σ ε : Type} {R : σ → σ → Prop} {E : ε → Prop}

/-- A failure of a scene that stems from a failed import of the given kind. -/
def Error.Stems (E : ε → Prop) : Error ε → Prop
  | .fault _ => False
  | .importFailed _ cause => E cause

theorem liftFault_refines {α : Type} (result : Except Fault α) :
    Refines R (Error.Stems E) (liftFault result : ExceptT (Error ε) (StateM σ) α)
      (liftFault result) := by
  cases result with
  | ok a => exact .pure a
  | error fault => exact .throw (Error.fault fault)

/-- A studio whose drawings for a chain another studio follows. -/
structure Studio.Refines (R : σ → σ → Prop) (E : ε → Prop) (chain : ImportChain)
    (studio other : Studio (StateM σ) ε) : Prop where
  drawing : ∀ name, name ∉ chain.names →
    Computation.Refines R E (ExceptT.mk (studio.drawing name (chain.push name)))
      (ExceptT.mk (other.drawing name (chain.push name)))
  imported : ∀ name node s s', R s s' →
    R (studio.imported name node s).2 (other.imported name node s').2

variable {settings : Drawing.Settings} {chain : ImportChain} {studio other : Studio (StateM σ) ε}

/-- To receive a drawing, or the error in its place, takes no fuel. -/
theorem receive_refines (h : Studio.Refines R E chain studio other) (doc : Document)
    (target : NodeId) (name : String) : ∀ answer : Except ε String,
    Refines R (Error.Stems E) (receive studio doc target name answer)
      (receive other doc target name answer)
  | .error _ => .throw _
  | .ok markup => by
    rw [receive, receive]
    split
    · exact .throw _
    · exact .bind (.lift (fun _ _ _ => rfl) (h.imported _ _)) fun _ => .pure _

/-- A drawing that the first studio has no answer to is one that the import fails with. -/
theorem request_refines (h : Studio.Refines R E chain studio other) (doc : Document)
    (target : NodeId) {name : String} (hnew : name ∉ chain.names) :
    Refines R (Error.Stems E)
      (request ⟨settings, some studio, chain⟩ doc target name (chain.push name))
      (request ⟨settings, some other, chain⟩ doc target name (chain.push name)) := by
  have hrun : ∀ (studio : Studio (StateM σ) ε) s,
      (request ⟨settings, some studio, chain⟩ doc target name (chain.push name)).run.run s
        = (receive studio doc target name (studio.drawing name (chain.push name) s).1).run.run
            (studio.drawing name (chain.push name) s).2 :=
    fun _ _ => rfl
  intro s s' hs
  rw [hrun, hrun]
  obtain ⟨e, he, hexcused⟩ | ⟨hanswer, hstate⟩ := h.drawing name hnew s s' hs
  · have hfailed : (studio.drawing name (chain.push name) s).1 = .error e := he
    rw [hfailed]
    exact .inl ⟨.importFailed name e, rfl, hexcused⟩
  · have hsame : (studio.drawing name (chain.push name) s).1
        = (other.drawing name (chain.push name) s').1 := hanswer
    rw [← hsame]
    exact receive_refines h doc target name _ _ _ hstate

/-- An import comes out the same with more fuel, unless the drawing it asks for ran out of it. -/
theorem importInto_refines (h : Studio.Refines R E chain studio other) (doc : Document)
    (target : NodeId) (args : List Arg) :
    Refines R (Error.Stems E) (importInto ⟨settings, some studio, chain⟩ doc target args)
      (importInto ⟨settings, some other, chain⟩ doc target args) := by
  cases hname : args.head?.bind Arg.text? with
  | none =>
    rw [importInto_unnamed _ doc target hname, importInto_unnamed _ doc target hname]
    exact .throw _
  | some name =>
    by_cases hmem : name ∈ chain.names
    · rw [importInto_cycle _ doc target hname hmem, importInto_cycle _ doc target hname hmem]
      exact .throw _
    · rw [importInto_new _ doc target hname hmem, importInto_new _ doc target hname hmem]
      exact request_refines h doc target hmem

/-- So does every method, of which only the import asks the studio. -/
theorem perform_refines (h : Studio.Refines R E chain studio other) (doc : Document)
    (target : NodeId) (name : String) (raw : List Json) :
    Refines R (Error.Stems E) (perform ⟨settings, some studio, chain⟩ doc target name raw)
      (perform ⟨settings, some other, chain⟩ doc target name raw) := by
  rw [perform, perform]
  split
  · exact .throw _
  · split
    · exact .throw _
    split
    · exact .throw _
    split
    · exact importInto_refines h doc target _
    · exact liftFault_refines _

mutual

/-- **A call is followed by the same call**, by induction on the calls in its value. -/
theorem call_refines (h : Studio.Refines R E chain studio other) (target : NodeId)
    (name : String) (doc : Document) : ∀ spec : Json,
    Refines R (Error.Stems E) (call ⟨settings, some studio, chain⟩ target name doc spec)
      (call ⟨settings, some other, chain⟩ target name doc spec)
  | .object fields => by
    rw [call, call]
    refine .bind (perform_refines h doc target name _) fun (doc, result) => ?_
    dsimp only
    split
    · exact .bind (callAll_refines h result (some name) doc fields) fun doc => .pure (doc, result)
    · exact .pure (doc, result)
  | .null | .bool _ | .number _ | .string _ | .array _ => perform_refines h doc target name _

/-- The same for the calls of fields. -/
theorem callAll_refines (h : Studio.Refines R E chain studio other) (target : NodeId)
    (skip : Option String) (doc : Document) : ∀ calls : List (String × Json),
    Refines R (Error.Stems E) (callAll ⟨settings, some studio, chain⟩ target skip doc calls)
      (callAll ⟨settings, some other, chain⟩ target skip doc calls)
  | [] => .pure doc
  | (name, spec) :: rest => by
    rw [callAll, callAll]
    split
    · exact callAll_refines h target skip doc rest
    · rw [map_eq_pure_bind, map_eq_pure_bind]
      exact .bind (.bind (call_refines h target name doc spec) fun _ => .pure _)
        fun doc => callAll_refines h target skip doc rest

end

/-- So does an entry of a scene. -/
theorem drawEntry_refines (h : Studio.Refines R E chain studio other) (doc : Document)
    (name : String) (value : Json) :
    Refines R (Error.Stems E) (drawEntry ⟨settings, some studio, chain⟩ doc name value)
      (drawEntry ⟨settings, some other, chain⟩ doc name value) := by
  cases value with
  | object calls => exact callAll_refines h Document.root none doc calls
  | null => exact .pure doc
  | array items => exact .throw _
  | bool _ | number _ | string _ =>
    rw [drawEntry.eq_def, drawEntry.eq_def]
    dsimp only
    split
    · exact .pure _
    · exact .pure _

theorem drawEntries_refines (h : Studio.Refines R E chain studio other) :
    ∀ (entries : List (String × Json)) (doc : Document),
    Refines R (Error.Stems E) (drawEntries ⟨settings, some studio, chain⟩ doc entries)
      (drawEntries ⟨settings, some other, chain⟩ doc entries)
  | [], doc => .pure doc
  | (name, value) :: rest, doc =>
    .bind (drawEntry_refines h doc name value) fun doc => drawEntries_refines h rest doc

/-- **A scene drawn with the second studio follows the one drawn with the first.** -/
theorem render_refines (settings : Drawing.Settings) (h : Studio.Refines R E chain studio other)
    (animations : Bool) (scene : Scene) :
    Refines R (Error.Stems E) (render ⟨settings, some studio, chain⟩ animations scene)
      (render ⟨settings, some other, chain⟩ animations scene) :=
  .bind (drawEntries_refines h scene.entries _) fun _ => .pure _

end Scene
end Frontispiece
