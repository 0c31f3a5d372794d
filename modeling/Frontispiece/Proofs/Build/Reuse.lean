import Frontispiece.Proofs.Build.Run
import Frontispiece.Proofs.Scene.Refine

/-!
# Imports reuse results

A scene that imports a name is to get a result of that name that is kept in memory, whenever there
is one.  A build looks at one descriptor only, the first that renders the template of that name.
So a result that a later descriptor of the name holds is passed over, unless the first one holds
one, too.

## What is here

* `collected?`, `library` — a result of a name wherever it is held, and the importer that reuses it.
* `Registry.CollectsFirst` — of the descriptors of a name, the first keeps its result if any does.
* `studio_drawing_eq` — where the first descriptor of each name holds a result if any does, the
  importer of a build answers as the library.
* `Plan.import_reuse` — then every import of a build is answered so: as a statement about single
  imports, and as one about all that a descriptor goes through.

The program looks for a kept result in one descriptor only, the first that renders the template of
the name.  So a result is reused if that descriptor is the one that keeps it, which is a matter of
the order of descriptors.  `CollectsFirst` is the condition on the order, and the theorem says that
then the importer is the one that the documentation describes, `library`.  The condition is not met
by every build, and the last theorem has one in which a result is passed over.
-/

set_option autoImplicit false

namespace Frontispiece

namespace Project

/-- Whether a descriptor renders the template of a name, and no variant of it. -/
def Descriptor.rendersTemplate (d : Descriptor) (input : String) : Bool :=
  d.input == input && !d.kind.isVariant

/-- The first descriptor of a name is the one that a scene imports. -/
theorem Registry.importable?_eq (r : Registry) (name : String) :
    r.importable? name = r.find? fun d => d.rendersTemplate name := by
  rw [importable?, byInput, List.find?_filter]
  simp [Descriptor.rendersTemplate, beq_eq_decide]

/-- The first descriptor of a name holds a result if any of them does. -/
def Registry.HoldsFirst (r : Registry) : Prop :=
  ∀ name d, r.importable? name = some d →
    ∀ e ∈ r, e.rendersTemplate name = true → e.rendered.isSome = true → d.rendered.isSome = true

/-- The first descriptor of a name has no file, or holds a result from the outset, if any of them
does. -/
def Registry.CollectsFirst (r : Registry) : Prop :=
  ∀ name d, r.importable? name = some d → ∀ e ∈ r, e.rendersTemplate name = true →
    (e.rendered.isSome = true → d.rendered.isSome = true) ∧
      (e.out = none → d.rendered.isSome = true ∨ d.out = none)

/-- A result of a name that is kept in memory, whichever descriptor of the name holds it. -/
def Registry.collected? (r : Registry) (name : String) : Option String :=
  r.findSome? fun d => if d.rendersTemplate name then d.rendered else none

theorem Registry.collected?_isSome_iff {r : Registry} {name : String} :
    (r.collected? name).isSome = true ↔
      ∃ d ∈ r, d.rendersTemplate name = true ∧ d.rendered.isSome = true := by
  rw [collected?, List.findSome?_isSome_iff]
  refine exists_congr fun d => and_congr_right fun _ => ?_
  by_cases h : d.rendersTemplate name = true
  · simp [h]
  · simp [h]

/-- What is reused is held by a descriptor of that name. -/
theorem Registry.exists_of_collected? {r : Registry} {name markup : String}
    (h : r.collected? name = some markup) :
    ∃ d ∈ r, d.rendersTemplate name = true ∧ d.rendered = some markup := by
  obtain ⟨d, hd, hrendered⟩ := List.exists_of_findSome?_eq_some h
  split at hrendered
  · next hname => exact ⟨d, hd, hname, hrendered⟩
  · cases hrendered

/-- Where the first descriptor of a name holds a result if any does, it is the one to ask. -/
theorem Registry.HoldsFirst.collected?_eq {r : Registry} (h : r.HoldsFirst) (name : String) :
    r.collected? name = (r.importable? name).bind (·.rendered) := by
  cases hfirst : r.importable? name with
  | none =>
    have hnone : ∀ d ∈ r, ¬d.rendersTemplate name = true := by
      simpa [importable?_eq] using hfirst
    rw [collected?, List.findSome?_eq_none_iff.mpr fun d hd => if_neg (hnone d hd)]
    rfl
  | some d =>
    show r.collected? name = d.rendered
    cases hrendered : d.rendered with
    | none =>
      refine Option.not_isSome_iff_eq_none.mp fun hsome => ?_
      obtain ⟨e, he, hname, hheld⟩ := collected?_isSome_iff.mp hsome
      have hd := h name d hfirst e he hname hheld
      rw [hrendered] at hd
      cases hd
    | some markup =>
      obtain ⟨hname, before, after, rfl, hbefore⟩ := List.find?_eq_some_iff_append.mp
        (importable?_eq r name ▸ hfirst)
      have hpassed : before.findSome? (fun d => if d.rendersTemplate name then d.rendered else none)
          = none :=
        List.findSome?_eq_none_iff.mpr fun e he => if_neg (by simpa using hbefore e he)
      simp [collected?, List.findSome?_append, hpassed, hname, hrendered]

end Project

namespace Build

open Files (FileTree)
open Project (Descriptor OutputIndex Registry)
open Scene (Easel ImportChain Studio)

/-- The descriptor to render for a name of which no result is kept: the first of that name, or a
drawing with the given data. -/
def fresh (r : Registry) (data : Json) (name : String) : Descriptor :=
  (r.importable? name).getD { input := name, out := none, kind := .svg, data }

/-- The drawings of a build as they are to be had: a result that is kept in memory is reused
whenever there is one, and all else is rendered. -/
def library (data : Json)
    (render : Descriptor → ImportChain → Working (Except Failure String)) :
    Studio Working Failure where
  drawing name chain := do
    let w ← get
    match w.templates.collected? name with
    | some markup => do
      log .debug (quoted name ++ ": reusing collected result")
      pure (.ok markup)
    | none => render (fresh w.templates data name) chain
  imported name node := log .debug ("imported " ++ quoted name ++ " into " ++ node)

namespace Plan

/-- **The importer of a build answers as the library** while the first descriptor of each name
holds a result if any does. -/
theorem studio_drawing_eq {w : Workspace} (h : w.templates.HoldsFirst) (data : Json)
    {render render' : Descriptor → ImportChain → Working (Except Failure String)}
    {chain : ImportChain} (hrender : ∀ d, (render d chain).run w = (render' d chain).run w)
    (name : String) :
    ((studio data render).drawing name chain).run w
      = ((library data render').drawing name chain).run w := by
  simp only [studio, library, StateT.run_bind, StateT.run_get, pure_bind, h.collected?_eq name,
    fresh]
  cases hfirst : w.templates.importable? name with
  | none => exact hrender _
  | some d =>
    dsimp only [Option.bind_some]
    cases hrendered : d.rendered with
    | none => exact hrender d
    | some markup => rfl

variable (p : Plan)

/-- `renderWithin` with the library as the importer. -/
def renderReusing : Nat → Bool → Descriptor → ImportChain → Building String
  | 0, _, _, chain => throw (.scene (.fault (.importCycle chain.names)))
  | depth + 1, animations, d, chain => do
    let source ← p.source d
    let text ← p.compile source d.data
    debugLog (quoted d.input ++ ": compiled")
    match d.kind with
    | .markdown => pure text
    | .svg =>
      let library := library d.data fun d chain => (renderReusing depth true d chain).run
      p.drawing library animations chain text
    | kind => throw (.template (.notRenderable kind))

/-- `produce` with the library as the importer, at every depth of imports. -/
def produceReusing (index : OutputIndex) (d : Descriptor) : Building (Descriptor × String) := do
  debugLog (quoted d.input ++ " (" ++ d.kind.name ++ "): pending")
  let ⟨target, animations⟩ ← target index d
  let text ← p.renderReusing importDepth animations target (.startingAt target.input)
  p.validate target text
  let text ← p.minify target text
  pure (target, text)

variable {p} {files : FileTree} {k : Nat} {w w' : Workspace}

/-- The descriptor at a position of the registry that a build has filled in. -/
theorem exists_of_getElem?_filled {i : Nat} {d : Descriptor}
    (h : (p.filled files k)[i]? = some d) : ∃ e, p.templates[i]? = some e ∧
      d = if i < k ∧ e.out.isNone then { e with rendered := p.produced files i } else e := by
  simp only [filled, List.getElem?_mapIdx, Option.map_eq_some_iff] at h
  obtain ⟨e, he, hd⟩ := h
  exact ⟨e, he, hd.symm⟩

/-- A build up to a position keeps the results that were there, and adds those of descriptors
without a file. -/
theorem isSome_filled_iff (hproduced : ∀ i < k, i < p.templates.length → (p.produced files i).isSome)
    {i : Nat} {d e : Descriptor} (he : p.templates[i]? = some e)
    (hd : d = if i < k ∧ e.out.isNone then { e with rendered := p.produced files i } else e) :
    d.rendered.isSome = true ↔ e.rendered.isSome = true ∨ (i < k ∧ e.out = none) := by
  have hlength : i < p.templates.length := (List.getElem?_eq_some_iff.mp he).1
  by_cases hfilled : i < k ∧ e.out = none
  · have hresult := hproduced i hfilled.1 hlength
    simp [hd, hfilled.1, hfilled.2, hresult]
  · have hkept : ¬(i < k ∧ e.out.isNone = true) := by simpa using hfilled
    rw [hd, if_neg hkept]
    exact (or_iff_left hfilled).symm

/-- A descriptor renders the template that it rendered before. -/
theorem rendersTemplate_filled {i : Nat} {d e : Descriptor} (name : String)
    (hd : d = if i < k ∧ e.out.isNone then { e with rendered := p.produced files i } else e) :
    d.rendersTemplate name = e.rendersTemplate name := by
  rw [hd]
  split
  · rfl
  · rfl

/-- **At every position of a build the first descriptor of a name holds a result if any does**, when
the first keeps its result if any does. -/
theorem holdsFirst_of_upTo (hcollects : p.templates.CollectsFirst)
    (hupTo : runFrom (p.upTo k) (p.start files) = (.ok (), w)) : w.templates.HoldsFirst := by
  have hbuilt := upTo_built hupTo
  rw [hbuilt.templates]
  intro name first hfirst later hlater hname hheld
  obtain ⟨hfirstName, i, hi, hat, hbefore⟩ := List.find?_eq_some_iff_getElem.mp
    (Registry.importable?_eq _ name ▸ hfirst)
  obtain ⟨j, hj⟩ := List.mem_iff_getElem?.mp hlater
  obtain ⟨d, hd, hfilled⟩ := exists_of_getElem?_filled (List.getElem?_eq_some_iff.mpr ⟨hi, hat⟩)
  obtain ⟨e, he, hfilled'⟩ := exists_of_getElem?_filled hj
  rw [rendersTemplate_filled name hfilled'] at hname
  rw [rendersTemplate_filled name hfilled] at hfirstName
  -- the first of the name is the same descriptor as before the build
  have hothers : ∀ i' < i, ∀ e', p.templates[i']? = some e' → ¬e'.rendersTemplate name = true := by
    intro i' hlt e' he'
    obtain ⟨e₁, he₁, hsame⟩ := exists_of_getElem?_filled
      (List.getElem?_eq_getElem (show i' < (p.filled files k).length by omega))
    cases he'.symm.trans he₁
    have hnot := hbefore i' hlt
    rw [rendersTemplate_filled name hsame] at hnot
    simpa using hnot
  have himportable : p.templates.importable? name = some d := by
    obtain ⟨hlength, hthere⟩ := List.getElem?_eq_some_iff.mp hd
    rw [Registry.importable?_eq]
    refine List.find?_eq_some_iff_getElem.mpr ⟨hfirstName, i, hlength, hthere, fun i' hlt => ?_⟩
    simpa using hothers i' hlt _ (List.getElem?_eq_getElem (by omega))
  have hle : i ≤ j := by
    by_contra hlt
    exact hothers j (by omega) e he hname
  obtain ⟨hinitial, hcollected⟩ := hcollects name d himportable e (List.mem_of_getElem? he) hname
  rw [isSome_filled_iff hbuilt.produced hd hfilled]
  obtain hthere | ⟨hlt, hout⟩ := (isSome_filled_iff hbuilt.produced he hfilled').mp hheld
  · exact .inl (hinitial hthere)
  · exact (hcollected hout).imp id fun hnone => ⟨by omega, hnone⟩

section

variable (hholds : w.templates.HoldsFirst)
include hholds

/-- **A scene is drawn alike from the library**, in the states that a build is in while it does not
go on to another position. -/
theorem drawing_library {data : Json} {render render' : Descriptor → ImportChain → Building String}
    (hrender : ∀ d chain w', w.Same w' → runFrom (render d chain) w' = runFrom (render' d chain) w')
    (hkeeps : ∀ d chain, Keeps (render d chain)) (animations : Bool) (chain : ImportChain)
    (text : String) (hsame : w.Same w') :
    runFrom (p.drawing (studio data fun d chain => (render d chain).run) animations chain text) w'
      = runFrom (p.drawing (library data fun d chain => (render' d chain).run) animations chain
          text) w' := by
  -- in the states that come up both studios are asked with the same descriptors at hand
  have hstudio : Scene.Studio.Refines (fun s s' => s' = s ∧ w.Same s) (fun _ => False) chain
      (studio data fun d chain => (render d chain).run)
      (library data fun d chain => (render' d chain).run) := by
    refine ⟨fun name _ => ?_, fun name node => ?_⟩
    · rintro _ s ⟨rfl, hs⟩
      have hs' : s.templates.HoldsFirst := hs.templates ▸ hholds
      have hsame := studio_drawing_eq hs' data (fun d => hrender d (chain.push name) s hs) name
      exact .inr ⟨congrArg Prod.fst hsame, (congrArg Prod.snd hsame).symm,
        hs.trans (studio_moves p.telling_same hkeeps name _ s)⟩
    · rintro _ s ⟨rfl, hs⟩
      exact ⟨rfl, hs.trans ⟨rfl, rfl, rfl⟩⟩
  rw [drawing, drawing]
  cases Scene.read text with
  | error fault => rfl
  | ok scene =>
    dsimp only
    have hscene := Scene.render_refines { pretty := p.debug } hstudio animations scene w' w'
      ⟨rfl, hsame⟩
    obtain ⟨error, -, hstems⟩ | ⟨hanswer, hstate, -⟩ := hscene
    · cases error <;> exact hstems.elim
    · rw [runFrom_adapt, runFrom_adapt]
      exact Prod.ext (congrArg (Except.mapError Failure.scene) hanswer) hstate.symm

/-- **Rendering imports from the library**, by induction on the chains of imports. -/
theorem renderWithin_eq_reusing : ∀ (depth : Nat) (animations : Bool) (d : Descriptor)
    (chain : ImportChain) (w' : Workspace), w.Same w' →
    runFrom (p.renderWithin depth animations d chain) w'
      = runFrom (p.renderReusing depth animations d chain) w'
  | 0, _, _, _, _, _ => rfl
  | depth + 1, animations, d, chain, w', hsame => by
    rw [renderWithin, renderReusing]
    refine runFrom_bind_congr fun source w₁ hsource => runFrom_bind_congr fun text w₂ hcompile =>
      runFrom_bind_congr fun _ w₃ hlog => ?_
    have h₁ := source_moves p.telling_same d w'
    have h₂ := p.compile_keeps source d.data w₁
    have h₃ := p.telling_same.debugLog (quoted d.input ++ ": compiled") w₂
    rw [hsource] at h₁
    rw [hcompile] at h₂
    rw [hlog] at h₃
    cases d.kind with
    | svg =>
      refine drawing_library hholds (renderWithin_eq_reusing depth true)
        (fun d chain => renderWithin_moves p.telling_same depth true d chain) animations chain text ?_
      exact hsame.trans (h₁.trans (h₂.trans h₃))
    | _ => rfl

/-- **A descriptor is produced with imports from the library.** -/
theorem produce_eq_reusing (index : OutputIndex) (d : Descriptor) :
    runFrom (p.produce index d) w = runFrom (p.produceReusing index d) w := by
  rw [produce, produceReusing]
  refine runFrom_bind_congr fun _ w₁ hlog => runFrom_bind_congr fun e w₂ htarget => ?_
  have h₁ := p.telling_same.debugLog (quoted d.input ++ " (" ++ d.kind.name ++ "): pending") w
  have h₂ := target_moves p.telling_same index d w₁
  rw [hlog] at h₁
  rw [htarget] at h₂
  have hrender : runFrom (p.render e.animations e.descriptor) w₂
      = runFrom (p.renderReusing importDepth e.animations e.descriptor
          (.startingAt e.descriptor.input)) w₂ :=
    renderWithin_eq_reusing hholds _ _ _ _ w₂ (h₁.trans h₂)
  dsimp only
  rw [runFrom_bind, runFrom_bind, hrender]

end

/-- **Imports reuse results.**  When of the descriptors of each name that are no variants the first
has no file, or holds a result from the outset, if any of them does, then at every position of a
build

* an import of a name of which such a descriptor holds a result answers with such a result;
* any other import renders the template of the name, with the data of the first such descriptor, or
  as a drawing with the data of the importer when there is none;
* the descriptor at the position is produced with all its imports, at every depth, answered so. -/
theorem import_reuse (p : Plan) (files : FileTree) (hcollects : p.templates.CollectsFirst) (k : Nat)
    (w : Workspace) (hupTo : runFrom (p.upTo k) (p.start files) = (.ok (), w)) :
    (∀ w', w.Same w' → ∀ data render name chain,
      ((∃ d ∈ w.templates, d.rendersTemplate name = true ∧ d.rendered.isSome = true) →
        ∃ d ∈ w.templates, d.rendersTemplate name = true ∧ ∃ markup, d.rendered = some markup ∧
          (((studio data render).drawing name chain).run w').1 = .ok markup) ∧
      ((∀ d ∈ w.templates, d.rendersTemplate name = true → d.rendered = none) →
        ((studio data render).drawing name chain).run w'
          = (render (fresh w.templates data name) chain).run w')) ∧
    ∀ d, runFrom (p.produce p.index d) w = runFrom (p.produceReusing p.index d) w := by
  have hholds := holdsFirst_of_upTo hcollects hupTo
  refine ⟨fun w' hsame data render name chain => ?_, produce_eq_reusing hholds p.index⟩
  have hholds' : w'.templates.HoldsFirst := hsame.templates ▸ hholds
  rw [studio_drawing_eq hholds' data (fun _ => rfl) name]
  simp only [library, StateT.run_bind, StateT.run_get, pure_bind, hsame.templates]
  constructor
  · intro hheld
    obtain ⟨markup, hmarkup⟩ :=
      Option.isSome_iff_exists.mp (Registry.collected?_isSome_iff.mpr hheld)
    obtain ⟨d, hd, hname, hrendered⟩ := Registry.exists_of_collected? hmarkup
    rw [hmarkup]
    exact ⟨d, hd, hname, markup, hrendered, rfl⟩
  · intro hnone
    have hmissing : w.templates.collected? name = none := by
      refine Option.not_isSome_iff_eq_none.mp fun hsome => ?_
      obtain ⟨d, hd, hname, hheld⟩ := Registry.collected?_isSome_iff.mp hsome
      rw [hnone d hd hname] at hheld
      cases hheld
    rw [hmissing]

/-- A note without a file, the same note with one, and a drawing that may import it. -/
def collectedNote : Plan :=
  { notes with
    templates := [⟨"a", none, .markdown, .null, true, none⟩,
      ⟨"a", some "b", .markdown, .null, true, none⟩,
      ⟨"c", some "d", .svg, .null, true, none⟩] }

set_option maxRecDepth 20000 in
/-- When the build comes to the drawing, the result of the first note is what is imported. -/
theorem collectedNote_import_reuse : ∃ w,
    collectedNote.templates.CollectsFirst ∧
      runFrom (collectedNote.upTo 2) (collectedNote.start noteTemplates) = (.ok (), w) ∧
      ∀ data render chain,
        (((studio data render).drawing "a" chain).run w).1 = .ok "\n" := by
  have hcollects : collectedNote.templates.CollectsFirst := by
    intro name d hfirst e he hname
    simp only [collectedNote, List.mem_cons, List.not_mem_nil, or_false] at he
    rcases he with rfl | rfl | rfl
    · obtain ⟨rfl, -⟩ : "a" = name ∧ _ := by simpa [Descriptor.rendersTemplate] using hname
      cases hfirst
      simp
    · obtain ⟨rfl, -⟩ : "a" = name ∧ _ := by simpa [Descriptor.rendersTemplate] using hname
      cases hfirst
      simp
    · simp
  obtain ⟨_, w, hupTo⟩ : ∃ a w, runFrom (collectedNote.upTo 2) (collectedNote.start noteTemplates)
      = (.ok a, w) := exists_ok (by decide +kernel)
  have htext : collectedNote.produced noteTemplates 0 = some "\n" := by decide +kernel
  have htemplates : collectedNote.filled noteTemplates 2
      = [⟨"a", none, .markdown, .null, true, collectedNote.produced noteTemplates 0⟩,
        ⟨"a", some "b", .markdown, .null, true, none⟩,
        ⟨"c", some "d", .svg, .null, true, none⟩] := rfl
  rw [htext] at htemplates
  rw [← (upTo_built hupTo).templates] at htemplates
  refine ⟨w, hcollects, hupTo, fun data render chain => ?_⟩
  obtain ⟨hreuse, -⟩ := (import_reuse collectedNote noteTemplates hcollects 2 w hupTo).1 w (.refl w)
    data render "a" chain
  obtain ⟨d, hd, hname, markup, hmarkup, himported⟩ :=
    hreuse ⟨⟨"a", none, .markdown, .null, true, some "\n"⟩, by simp [htemplates], rfl, rfl⟩
  rw [htemplates] at hd
  simp only [List.mem_cons, List.not_mem_nil, or_false] at hd
  rcases hd with rfl | rfl | rfl
  · cases hmarkup
    exact himported
  · cases hmarkup
  · cases hmarkup

/-- The same notes, that with the file first. -/
def writtenNote : Plan :=
  { notes with
    templates := [⟨"a", some "b", .markdown, .null, true, none⟩,
      ⟨"a", none, .markdown, .null, true, none⟩,
      ⟨"c", some "d", .svg, .null, true, none⟩] }

set_option maxRecDepth 20000 in
/-- **A result can be passed over**: of two notes only the second keeps its result, and an import by
the drawing after them renders the template of the first again. -/
theorem exists_import_not_reused : ¬ ∀ (p : Plan) (files : FileTree) (k : Nat) (w : Workspace),
    runFrom (p.upTo k) (p.start files) = (.ok (), w) → ∀ data depth name chain,
      (∃ d ∈ w.templates, d.rendersTemplate name = true ∧ d.rendered.isSome = true) →
      ∃ d ∈ w.templates, d.rendersTemplate name = true ∧ ∃ markup, d.rendered = some markup ∧
        (((studio data fun d chain => (p.renderWithin depth true d chain).run).drawing name
          chain).run w).1 = .ok markup := by
  intro hall
  obtain ⟨_, w, hupTo⟩ : ∃ a w, runFrom (writtenNote.upTo 2) (writtenNote.start noteTemplates)
      = (.ok a, w) := exists_ok (by decide +kernel)
  have htext : writtenNote.produced noteTemplates 1 = some "\n" := by decide +kernel
  have htemplates : writtenNote.filled noteTemplates 2
      = [⟨"a", some "b", .markdown, .null, true, none⟩,
        ⟨"a", none, .markdown, .null, true, writtenNote.produced noteTemplates 1⟩,
        ⟨"c", some "d", .svg, .null, true, none⟩] := rfl
  rw [htext] at htemplates
  have hagain : (((studio .null fun d chain => (writtenNote.renderWithin 1 true d chain).run).drawing
      "a" ⟨[]⟩).run (runFrom (writtenNote.upTo 2) (writtenNote.start noteTemplates)).2).1.toOption
        = some "" := by decide +kernel
  rw [← (upTo_built hupTo).templates] at htemplates
  rw [hupTo] at hagain
  obtain ⟨d, hd, hname, markup, hmarkup, himported⟩ := hall writtenNote noteTemplates 2 w hupTo
    .null 1 "a" ⟨[]⟩ ⟨⟨"a", none, .markdown, .null, true, some "\n"⟩, by simp [htemplates], rfl, rfl⟩
  rw [himported] at hagain
  cases hagain
  rw [htemplates] at hd
  simp only [List.mem_cons, List.not_mem_nil, or_false] at hd
  rcases hd with rfl | rfl | rfl
  · cases hmarkup
  · exact absurd hmarkup (by decide)
  · cases hmarkup

end Plan
end Build
end Frontispiece
