import Frontispiece.Proofs.Build.Session
import Frontispiece.Proofs.Scene.Refine

/-!
# How deep imports go

Rendering follows chains of imports no further than a fuel, for which `importDepth` is a large
number.  The fuel is spent on a chain of as many different names, and then rendering fails with a
cycle that is none.  As long as this does not happen, more fuel changes nothing.

By the same induction rendering goes alike from workspaces that differ in their journals only.

## What is here

* `Plan.Respects` — a relation that compiling and telling take from workspaces to workspaces.
* `Failure.Spent` — the failures of fuel that is spent, however deep in imports.
* `Plan.renderWithin_refines` — rendering with more fuel follows rendering with less, from related
  workspaces, by induction on the fuel.
* `runFrom_renderWithin_of_le` — what more fuel does to an answer.
* `Plan.renderWithin_quiet` — what another journal does.

Recursion through imports has fuel in the model, and the program has none.  This module is there to
show that the fuel does not matter: if it is ever spent, then the chain of imports has as many
different names on it as there was fuel, and so the failure that results says this.  In all other
cases more fuel leads to the same answer and the same workspace.

The same induction serves another purpose, as the relation of workspaces is left open: lines that
were told make no difference to anything that is computed.
-/

set_option autoImplicit false

namespace Frontispiece
namespace Build

open Frontispiece.Computation (Refines)
open Project (Descriptor)
open Scene (ImportChain Studio)

/-- A failure of fuel that is spent: a cycle of so many names of which none comes twice, or the
failure of an import that ends so. -/
inductive Failure.Spent (count : Nat) : Failure → Prop
  | here {names : List String} (hnodup : names.Nodup) (hlength : names.length = count) :
    Failure.Spent count (.scene (.fault (.importCycle names)))
  | inside {name : String} {cause : Failure} (h : Failure.Spent count cause) :
    Failure.Spent count (.scene (.importFailed name cause))

/-- Two workspaces that differ in their journals at most. -/
structure Workspace.Quiet (w w' : Workspace) : Prop where
  files : w'.files = w.files
  templates : w'.templates = w.templates
  desk : w'.desk = w.desk
  tasks : w'.tasks = w.tasks

namespace Plan

/-- A relation of workspaces with the same files and descriptors that compiling and telling keep. -/
structure Respects (p : Plan) (R : Workspace → Workspace → Prop) : Prop where
  files : ∀ {w w'}, R w w' → w'.files = w.files
  templates : ∀ {w w'}, R w w' → w'.templates = w.templates
  journal : ∀ {w w'} (f : Journal → Journal), R w w' →
    R { w with journal := f w.journal } { w' with journal := f w'.journal }
  compile : ∀ source data, Refines R (fun _ => False) (p.compile source data) (p.compile source data)

variable {p : Plan} {R : Workspace → Workspace → Prop} {E : Failure → Prop}

section

variable (h : p.Respects R)
include h

theorem Respects.debugLog (text : String) :
    Refines R E (Build.debugLog text) (Build.debugLog text) :=
  fun _ _ hw => .inr ⟨rfl, h.journal (·.log .debug text) hw⟩

theorem Respects.tell (messages : List Message) : Refines R E (p.tell messages) (p.tell messages) :=
  fun _ _ hw => .inr ⟨rfl, h.journal (·.tellAll p.console messages) hw⟩

theorem source_refines (d : Descriptor) : Refines R E (p.source d) (p.source d) := by
  refine .get_bind fun w w' hw => ?_
  rw [h.files hw]
  split
  · exact .pure _
  · exact .throw _

/-- A drawing that is imported is the same, if what is rendered for it is. -/
theorem studio_refines (data : Json) (chain : ImportChain)
    {render render' : Descriptor → ImportChain → Building String}
    (hrender : ∀ d name, name ∉ chain.names →
      Refines R E (render d (chain.push name)) (render' d (chain.push name))) :
    Studio.Refines R E chain (studio data fun d chain => (render d chain).run)
      (studio data fun d chain => (render' d chain).run) where
  drawing name hnew w w' hw := by
    simp only [studio, ExceptT.run_mk, StateT.run_bind, StateT.run_get, pure_bind, h.templates hw]
    cases w.templates.importable? name with
    | none => exact hrender _ name hnew w w' hw
    | some d =>
      dsimp only
      cases d.rendered with
      | none => exact hrender d name hnew w w' hw
      | some markup =>
        exact .inr ⟨rfl, h.journal (·.log .debug (quoted name ++ ": reusing collected result")) hw⟩
  imported name node _ _ hw :=
    h.journal (·.log .debug ("imported " ++ quoted name ++ " into " ++ node)) hw

/-- A scene is drawn alike, if the drawings that it imports are. -/
theorem drawing_refines (himport : ∀ name e, E e → E (.scene (.importFailed name e)))
    {chain : ImportChain} {studio other : Studio Working Failure}
    (hstudio : Studio.Refines R E chain studio other) (animations : Bool) (text : String) :
    Refines R E (p.drawing studio animations chain text)
      (p.drawing other animations chain text) := by
  rw [drawing, drawing]
  split
  · exact .bind (h.tell _) fun _ => .throw _
  · next scene _ =>
    intro w w' hw
    have hscene := Scene.render_refines { pretty := p.debug } hstudio animations scene w w' hw
    -- what the scene answers, the build answers as a failure of its own
    obtain ⟨e, he, hstems⟩ | ⟨hanswer, hstate⟩ := hscene
    · cases e with
      | fault fault => exact hstems.elim
      | importFailed name cause =>
        exact .inl ⟨_, congrArg (Except.mapError Failure.scene) he, himport name cause hstems⟩
    · exact .inr ⟨congrArg (Except.mapError Failure.scene) hanswer, hstate⟩

/-- **More fuel changes nothing before it is spent**, by induction on the fuel.  A chain grows by as
many names as the fuel shrinks, so that it has `count` of them when nothing is left. -/
theorem renderWithin_refines (himport : ∀ name e, E e → E (.scene (.importFailed name e)))
    (count extra : Nat)
    (hspent : extra ≠ 0 → ∀ names : List String, names.Nodup → names.length = count →
      E (.scene (.fault (.importCycle names)))) :
    ∀ (depth : Nat) (animations : Bool) (d : Descriptor) (chain : ImportChain),
      chain.names.Nodup → depth + chain.names.length = count →
      Refines R E (p.renderWithin depth animations d chain)
        (p.renderWithin (depth + extra) animations d chain)
  | 0, animations, d, chain, hnodup, hcount => by
    rw [renderWithin]
    by_cases hextra : extra = 0
    · subst hextra
      exact .throw _
    · exact .excused (hspent hextra chain.names hnodup (by omega))
  | depth + 1, animations, d, chain, hnodup, hcount => by
    have hdepth : depth + 1 + extra = depth + extra + 1 := by omega
    rw [hdepth, renderWithin, renderWithin]
    refine .bind (source_refines h d) fun source => ?_
    refine .bind ((h.compile source d.data).mono fun _ => False.elim) fun text => ?_
    refine .bind (h.debugLog _) fun _ => ?_
    split
    · exact .pure text
    · refine drawing_refines h himport (studio_refines h _ chain fun e name hnew => ?_) animations text
      refine renderWithin_refines himport count extra hspent depth true e (chain.push name)
        (ImportChain.nodup_push hnodup hnew) ?_
      simp only [ImportChain.push, List.length_append, List.length_singleton]
      omega
    · exact .throw _

end

/-! ## The answer does not hang on the fuel

Equal workspaces are a relation that compiling and telling respect.  Then a run with more fuel is
the same run, up to the failure of spent fuel. -/

theorem respects_eq (p : Plan) : p.Respects (· = ·) where
  files h := h ▸ rfl
  templates h := h ▸ rfl
  journal _ h := h ▸ rfl
  compile _ _ _ _ h := .inr ⟨h ▸ rfl, h ▸ rfl⟩

/-- **More fuel changes nothing**, unless rendering fails on a chain of as many different names as
there was fuel. -/
theorem runFrom_renderWithin_of_le {depth depth' : Nat} (hle : depth ≤ depth') (animations : Bool)
    (d : Descriptor) (w : Workspace)
    (hspent : ∀ e, (runFrom (p.renderWithin depth animations d (.startingAt d.input)) w).1 = .error e →
      ¬e.Spent (depth + 1)) :
    runFrom (p.renderWithin depth' animations d (.startingAt d.input)) w
      = runFrom (p.renderWithin depth animations d (.startingAt d.input)) w := by
  obtain ⟨extra, rfl⟩ := Nat.exists_eq_add_of_le hle
  have hrefines := renderWithin_refines p.respects_eq (E := Failure.Spent (depth + 1))
    (fun _ _ => .inside) (depth + 1) extra (fun _ _ => .here) depth animations d
    (.startingAt d.input) (List.nodup_singleton _) rfl w w rfl
  obtain ⟨e, he, hfailed⟩ | ⟨hanswer, hstate⟩ := hrefines
  · exact absurd hfailed (hspent e he)
  · exact (Prod.ext hanswer hstate).symm

/-! ## Nor on the journal

The journal is written and never read.  So two workspaces that differ in nothing else lead to the
same answers and again differ in nothing else. -/

theorem respects_quiet (p : Plan) : p.Respects Workspace.Quiet where
  files := (·.files)
  templates := (·.templates)
  journal _ h := ⟨h.files, h.templates, h.desk, h.tasks⟩
  compile source data w w' h := by
    have hcompile : ∀ w : Workspace, (p.compile source data).run.run w
        = runFrom (p.compile source data) w := fun _ => rfl
    rw [hcompile, hcompile, runFrom_compile, runFrom_compile, h.files, h.desk]
    exact .inr ⟨rfl, h.files, h.templates, rfl, h.tasks⟩

/-- **Rendering goes alike from workspaces that differ in their journals.** -/
theorem renderWithin_quiet (depth : Nat) (animations : Bool) (d : Descriptor) (chain : ImportChain)
    (hnodup : chain.names.Nodup) : Refines Workspace.Quiet (fun _ => False)
      (p.renderWithin depth animations d chain) (p.renderWithin depth animations d chain) :=
  renderWithin_refines p.respects_quiet (fun _ _ h => h) (depth + chain.names.length) 0
    (fun h => absurd rfl h) depth animations d chain hnodup rfl

end Plan
end Build
end Frontispiece
