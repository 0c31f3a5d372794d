import Frontispiece.Proofs.Scene.Import

/-!
# Scenes without imports

A scene that imports nothing asks its studio for nothing.  What it renders to is settled by the
scene and by the settings of the drawing alone.

## What is here

* `Alone` — a computation with an easel that comes to the same with every easel of the same settings
  and from every state, which it leaves as it is.  It composes.
* `render_alone` — rendering a scene without imports is such a computation, by induction on the
  calls in its entries.

The condition is about the values of a scene, not about what happens when it is drawn.  Here a call of
an import counts as one even if it is refused for another reason.  That makes the condition easy to
check and the theorem a little weaker than it could be.
-/

set_option autoImplicit false

namespace Frontispiece
namespace Scene

open Drawing (Document NodeId Settings)

variable {σ ε α β : Type} {settings : Settings}

/-- A computation that comes to the same with every easel of the given settings. -/
def Alone (settings : Settings) (x : Easel (StateM σ) ε → ExceptT (Error ε) (StateM σ) α) : Prop :=
  ∃ result : Except (Error ε) α, ∀ easel, easel.settings = settings → ∀ s,
    runFrom (x easel) s = (result, s)

namespace Alone

theorem pure (a : α) :
    Alone settings fun _ : Easel (StateM σ) ε => (Pure.pure a : ExceptT (Error ε) (StateM σ) α) :=
  ⟨.ok a, fun _ _ _ => rfl⟩

theorem throw (e : Error ε) : Alone settings fun _ : Easel (StateM σ) ε =>
    (MonadExcept.throw e : ExceptT (Error ε) (StateM σ) α) :=
  ⟨.error e, fun _ _ _ => rfl⟩

theorem liftFault (result : Except Fault α) : Alone settings fun _ : Easel (StateM σ) ε =>
    (liftFault result : ExceptT (Error ε) (StateM σ) α) := by
  cases result with
  | ok a => exact pure a
  | error fault => exact throw (.fault fault)

/-- One computation after another needs no studio if neither does. -/
theorem bind {x : Easel (StateM σ) ε → ExceptT (Error ε) (StateM σ) α}
    {f : Easel (StateM σ) ε → α → ExceptT (Error ε) (StateM σ) β} (hx : Alone settings x)
    (hf : ∀ a, Alone settings fun easel => f easel a) :
    Alone settings fun easel => x easel >>= f easel := by
  obtain ⟨result, hresult⟩ := hx
  cases result with
  | error e =>
    refine ⟨.error e, fun easel heasel s => ?_⟩
    rw [runFrom_bind, hresult easel heasel]
  | ok a =>
    obtain ⟨next, hnext⟩ := hf a
    refine ⟨next, fun easel heasel s => ?_⟩
    rw [runFrom_bind, hresult easel heasel]
    exact hnext easel heasel s

end Alone

/-! ## Drawing

By induction on the calls, as everything that is said of drawing.  The only step that looks at the
studio is an import, and there is none. -/

/-- A method that imports nothing. -/
theorem perform_alone (doc : Document) (target : NodeId) (name : String) {raw : List Json}
    (h : importName? name raw = none) :
    Alone settings fun easel : Easel (StateM σ) ε => perform easel doc target name raw := by
  cases hmethod : Method.ofName? name with
  | none =>
    simp only [perform, hmethod]
    exact .throw _
  | some method =>
    simp only [perform, hmethod]
    split
    · exact .throw _
    cases hadapt : method.adapt raw with
    | error fault => exact .throw _
    | ok args =>
      have hawaits : ¬method.awaits = true := by
        intro hawaits
        obtain rfl := eq_of_awaits hmethod hawaits
        obtain ⟨fault, hfault⟩ := adapt_import_error h
        obtain rfl : method = .importDrawing := by simpa [Method.awaits] using hawaits
        cases hadapt.symm.trans hfault
      simp only [if_neg hawaits]
      exact .liftFault _

mutual

/-- **A call that imports nothing**, by induction on the calls in its value. -/
theorem call_alone (target : NodeId) (name : String) (doc : Document) : ∀ spec : Json,
    callImports name spec = [] →
    Alone settings fun easel : Easel (StateM σ) ε => call easel target name doc spec
  | .object fields, h => by
    rw [callImports, List.append_eq_nil_iff, Option.toList_eq_nil_iff] at h
    simp only [call]
    refine (perform_alone doc target name h.1).bind fun (doc, result) => ?_
    dsimp only
    split
    · next hchains =>
      rw [if_pos hchains] at h
      exact (callAll_alone result (some name) doc fields h.2).bind fun doc => .pure (doc, result)
    · exact (Alone.pure doc).bind fun doc => .pure (doc, result)
  | .null, h | .bool _, h | .number _, h | .string _, h | .array _, h => by
    simp only [call]
    exact perform_alone doc target name (by simpa [callImports] using h)

/-- The same for the calls of fields. -/
theorem callAll_alone (target : NodeId) (skip : Option String) (doc : Document) :
    ∀ calls : List (String × Json), allImports skip calls = [] →
    Alone settings fun easel : Easel (StateM σ) ε => callAll easel target skip doc calls
  | [], _ => .pure doc
  | (name, spec) :: rest, h => by
    rw [allImports, List.append_eq_nil_iff] at h
    simp only [callAll]
    split
    · exact (Alone.pure doc).bind fun doc => callAll_alone target skip doc rest h.2
    · next hskip =>
      rw [if_neg hskip] at h
      simp only [map_eq_pure_bind, bind_assoc, pure_bind]
      exact (call_alone target name doc spec h.1).bind fun (doc, _) =>
        callAll_alone target skip doc rest h.2

end

/-- An entry that names no drawing does not ask for one. -/
theorem drawEntry_alone (doc : Document) (name : String) {value : Json}
    (h : entryImports value = []) :
    Alone settings fun easel : Easel (StateM σ) ε => drawEntry easel doc name value := by
  cases value with
  | object calls => exact callAll_alone Document.root none doc calls h
  | null => exact .pure doc
  | array items => exact .throw _
  | bool _ | number _ | string _ =>
    simp only [drawEntry.eq_def]
    split
    · exact .pure _
    · exact .pure _

theorem drawEntries_alone : ∀ (entries : List (String × Json)) (doc : Document),
    (entries.flatMap fun entry => entryImports entry.2) = [] →
    Alone settings fun easel : Easel (StateM σ) ε => drawEntries easel doc entries
  | [], doc, _ => .pure doc
  | (name, value) :: rest, doc, h => by
    rw [List.flatMap_cons, List.append_eq_nil_iff] at h
    simp only [drawEntries]
    exact (drawEntry_alone doc name h.1).bind fun doc => drawEntries_alone rest doc h.2

/-- **A scene without imports renders to the same wherever it is rendered.** -/
theorem render_alone (settings : Settings) (animations : Bool) {scene : Scene}
    (h : scene.imports = []) :
    Alone settings fun easel : Easel (StateM σ) ε => render easel animations scene := by
  have hdraw : Alone settings fun easel : Easel (StateM σ) ε =>
      drawEntries easel (Document.ofSettings settings) scene.entries :=
    drawEntries_alone scene.entries _ h
  obtain ⟨result, hresult⟩ := hdraw.bind fun doc => Alone.pure
    ((if animations then doc else doc.withoutAnimations).render settings.pretty)
  refine ⟨result, fun easel heasel s => ?_⟩
  show runFrom (render easel animations scene) s = _
  rw [← hresult easel heasel s, render, draw, heasel]

end Scene
end Frontispiece
