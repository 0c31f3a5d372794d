import Frontispiece.Build.Atlas
import Frontispiece.Proofs.Json.Fields
import Frontispiece.Proofs.Scene.Import
import Mathlib.Data.Finset.Card
import Mathlib.Data.List.Chain
import Mathlib.Logic.Relation

/-!
# Imports come to an end

The scenes of an atlas import from each other without a bound in sight.  What bounds them is that no
name comes twice on a chain: `Atlas.left` counts the names that a chain still lacks, and each import
of a scene leaves one less.

## What is here

* `nested_agrees` — an atlas whose imports are followed further than names are left is the same,
  whatever comes below.
* `Trail`, `requests_trail` — the chains that are asked for: paths of imports without repetition.
* `Succeeds.reach` — where a drawing succeeds, every path of imports was drawn, so that there is no
  cycle among them.
* `import_recursion` — what follows for a whole drawing.

An atlas is a studio in which every name has a fixed scene or none.  Drawing is a recursion through
it, and what bounds that recursion is not a number but the chain: a name on it is refused.  The
proofs have two directions.  From a request back to its origin, the chain is a path of imports
(`requests_trail`); and from a drawing that succeeds down along such a path, each drawing on it
succeeds as well (`Succeeds.reach`).  Along a cycle such a path comes back to a name on its chain,
where drawing fails.
-/

set_option autoImplicit false

namespace Frontispiece
namespace Build
namespace Atlas

open Drawing (Document NodeId)
open Scene (Easel ImportChain Method Studio accepts importName? perform runFrom)

variable {σ : Type}

/-- The scene of `x` imports `y`. -/
def Imports (a : Atlas) (x y : String) : Prop :=
  ∃ scene, a.pages.get? x = some (.scene scene) ∧ y ∈ scene.imports

/-- What a studio was asked for, latest first. -/
abbrev Requests : Type := List (String × ImportChain)

/-- Notes what a studio is asked for. -/
def note (name : String) (chain : ImportChain) : StateM Requests Unit :=
  modify ((name, chain) :: ·)

/-! ## Imports come to an end

A chain of imports has no name twice, so it is no longer than the names there are.  The number of
names that are left falls with each import and serves as fuel that is not spent. -/

/-- How many names of an atlas are not on a chain. -/
def left (a : Atlas) (chain : ImportChain) : Nat :=
  (a.pages.keys.toFinset \ chain.names.toFinset).card

theorem left_le (a : Atlas) (chain : ImportChain) : a.left chain ≤ a.pages.length :=
  calc a.left chain ≤ a.pages.keys.toFinset.card := Finset.card_le_card Finset.sdiff_subset
    _ ≤ a.pages.keys.length := List.toFinset_card_le _
    _ = a.pages.length := List.length_map _

/-- A name with a page leaves fewer names for the chain behind it. -/
theorem left_push {a : Atlas} {chain : ImportChain} {name : String} (hname : name ∈ a.pages.keys)
    (hnew : name ∉ chain.names) : a.left (chain.push name) < a.left chain := by
  refine Finset.card_lt_card ((Finset.ssubset_iff_of_subset fun y hy => ?_).2 ⟨name, ?_, ?_⟩)
  · simp only [ImportChain.push, Finset.mem_sdiff, List.mem_toFinset, List.mem_append] at hy ⊢
    exact ⟨hy.1, fun hmem => hy.2 (.inl hmem)⟩
  · simp only [Finset.mem_sdiff, List.mem_toFinset]
    exact ⟨hname, hnew⟩
  · simp [ImportChain.push]

theorem render_agrees (a : Atlas) {studio other : Studio (StateM σ) Failure} {name : String}
    {chain : ImportChain} (h : name ∈ a.pages.keys → studio.Agrees chain other)
    (animations : Bool) :
    a.render studio animations name chain = a.render other animations name chain := by
  rw [render, render]
  cases hpage : a.pages.get? name with
  | none => rfl
  | some page =>
    cases page with
    | drawn markup => rfl
    | refused cause => rfl
    | scene scene =>
      have hname : name ∈ a.pages.keys := Fields.get?_isSome_iff.1 (by rw [hpage, Option.isSome])
      dsimp only
      rw [Scene.render_congr (h hname)]

/-- **Imports are followed no further than names are left**, by induction on the depths. -/
theorem nested_agrees (a : Atlas) (visit : String → ImportChain → StateM σ Unit)
    (base other : Studio (StateM σ) Failure) : ∀ (m n : Nat) (chain : ImportChain),
    a.left chain < m → a.left chain < n →
    (a.nested visit base m).Agrees chain (a.nested visit other n)
  | 0, _, _, hm, _ => absurd hm (Nat.not_lt_zero _)
  | _ + 1, 0, _, _, hn => absurd hn (Nat.not_lt_zero _)
  | m + 1, n + 1, chain, hm, hn =>
    { drawing := fun name hnew => by
        have hrender : a.render (a.nested visit base m) true name (chain.push name)
            = a.render (a.nested visit other n) true name (chain.push name) := by
          refine a.render_agrees (fun hname => ?_) true
          have hless := left_push hname hnew
          exact nested_agrees a visit base other m n (chain.push name) (by omega) (by omega)
        show (do visit name (chain.push name); a.render (a.nested visit base m) true name _)
          = (do visit name (chain.push name); a.render (a.nested visit other n) true name _)
        rw [hrender]
      imported := rfl }

/-- What lies below all names does not matter. -/
theorem render_nested (a : Atlas) (visit : String → ImportChain → StateM σ Unit)
    (base : Studio (StateM σ) Failure) {depth : Nat} (hdepth : a.pages.length < depth)
    (animations : Bool) (name : String) (chain : ImportChain) :
    a.render (a.nested visit base depth) animations name chain
      = a.render (a.studio visit) animations name chain := by
  have hleft := a.left_le chain
  exact a.render_agrees (fun _ => a.nested_agrees visit base closed depth _ chain (by omega)
    (by omega)) animations

/-! ## What is asked for

Every import that is tried has a chain behind it, and each link of the chain is an import by the
drawing before it.  This is what makes a reported cycle a cycle of the atlas. -/

/-- The drawing of a scene, run from what was asked for before. -/
theorem render_scene {a : Atlas} {name : String} {scene : Scene}
    (hpage : a.pages.get? name = some (.scene scene)) (studio : Studio (StateM σ) Failure)
    (animations : Bool) (chain : ImportChain) (s : σ) :
    a.render studio animations name chain s
      = ((runFrom (Scene.render ⟨a.settings, some studio, chain⟩ animations scene) s).1.mapError
          .scene,
        (runFrom (Scene.render ⟨a.settings, some studio, chain⟩ animations scene) s).2) := by
  have hbind {α β : Type} (x : StateM σ α) (f : α → StateM σ β) :
      (x >>= f) s = f (x s).1 (x s).2 := rfl
  rw [render, hpage]
  dsimp only
  rw [hbind, runFrom]
  cases hrun : (Scene.render ⟨a.settings, some studio, chain⟩ animations scene).run s with
  | mk answer s' =>
    rw [StateT.run, hrun]
    cases answer with
    | ok svg => rfl
    | error e => rfl

/-- What stays true while a scene imports stays true while its page is drawn. -/
theorem render_preserves {a : Atlas} {studio : Studio (StateM σ) Failure} {name : String}
    {chain : ImportChain} {P : σ → Prop}
    (hkeeps : ∀ scene, a.pages.get? name = some (.scene scene) →
      Easel.Keeps ⟨a.settings, some studio, chain⟩ scene.imports P)
    (animations : Bool) {s : σ} (h : P s) : P (a.render studio animations name chain s).2 := by
  cases hpage : a.pages.get? name with
  | none =>
    rw [render, hpage]
    exact h
  | some page =>
    cases page with
    | drawn markup =>
      rw [render, hpage]
      exact h
    | refused cause =>
      rw [render, hpage]
      exact h
    | scene scene =>
      rw [render_scene hpage]
      exact (Scene.render_draws _ animations scene).keeps P (hkeeps scene hpage) s h

/-- Let `Q` pass from a request to those that its scene makes.  What noting such requests keeps true
of all requests is true after a drawing, by induction on the depth. -/
theorem render_keeps (a : Atlas) {P : Requests → Prop} {Q : String → ImportChain → Prop}
    (hnote : ∀ name chain log, Q name chain → P log → P ((name, chain) :: log))
    (hstep : ∀ x y chain, Q x chain → a.Imports x y → y ∉ chain.names → Q y (chain.push y)) :
    ∀ (depth : Nat) (animations : Bool) (x : String) (chain : ImportChain), Q x chain →
      ∀ log, P log → P (a.render (a.nested note closed depth) animations x chain log).2
  | 0, animations, x, chain, _, log, hlog =>
    render_preserves (fun _ _ =>
      { drawing := fun _ hstudio _ _ _ _ h => Option.some.inj hstudio ▸ h
        imported := fun _ hstudio _ _ _ h => Option.some.inj hstudio ▸ h }) animations hlog
  | depth + 1, animations, x, chain, hx, log, hlog =>
    render_preserves (fun scene hpage =>
      { drawing := fun _ hstudio y hy hnew log hlog => by
          have hreq : Q y (chain.push y) := hstep x y chain hx ⟨scene, hpage, hy⟩ hnew
          cases hstudio
          exact render_keeps a hnote hstep depth true y _ hreq _ (hnote y _ log hreq hlog)
        imported := fun _ hstudio _ _ _ h => Option.some.inj hstudio ▸ h }) animations hlog

/-- A chain that can be asked for while `s` is drawn: a path of imports from `s` to the name that is
asked for, on which no name comes twice. -/
structure Trail (a : Atlas) (s name : String) (chain : ImportChain) : Prop where
  nodup : chain.names.Nodup
  head : chain.names.head? = some s
  last : chain.names.getLast? = some name
  linked : chain.names.IsChain a.Imports

theorem Trail.start (a : Atlas) (s : String) : a.Trail s s (.startingAt s) :=
  ⟨List.nodup_singleton s, rfl, rfl, .singleton s⟩

/-- An import of a new name makes a trail longer. -/
theorem Trail.push {a : Atlas} {s x y : String} {chain : ImportChain} (h : a.Trail s x chain)
    (himports : a.Imports x y) (hnew : y ∉ chain.names) : a.Trail s y (chain.push y) where
  nodup := ImportChain.nodup_push h.nodup hnew
  head := by
    rw [ImportChain.push, List.head?_append, h.head]
    rfl
  last := by rw [ImportChain.push, List.getLast?_concat]
  linked := by
    refine List.isChain_append.2 ⟨h.linked, .singleton y, fun z hz w hw => ?_⟩
    rw [h.last] at hz
    cases hz
    cases hw
    exact himports

/-- **Every chain that is asked for is a trail.** -/
theorem requests_trail (a : Atlas) (depth : Nat) (animations : Bool) (s : String) :
    ∀ request ∈ (a.render (a.nested note closed depth) animations s (.startingAt s) []).2,
      a.Trail s request.1 request.2 := by
  refine a.render_keeps (P := fun log => ∀ request ∈ log, a.Trail s request.1 request.2)
    (Q := fun name chain => a.Trail s name chain) (fun name chain log hreq hlog request hmem => ?_)
    (fun x y chain hx himports hnew => hx.push himports hnew) depth animations s _ (.start a s) []
    (fun request hmem => by cases hmem)
  rcases List.mem_cons.1 hmem with rfl | hmem
  · exact hreq
  · exact hlog request hmem

/-- What was asked for before is still known after a drawing. -/
theorem mem_requests (a : Atlas) (depth : Nat) (animations : Bool) (name : String)
    (chain : ImportChain) {request : String × ImportChain} {log : Requests}
    (h : request ∈ log) :
    request ∈ (a.render (a.nested note closed depth) animations name chain log).2 :=
  a.render_keeps (P := fun log => request ∈ log) (Q := fun _ _ => True)
    (fun _ _ _ _ hlog => List.mem_cons_of_mem _ hlog) (fun _ _ _ _ _ _ => trivial) depth animations
    name chain trivial log h

/-! ## Where there is no cycle

The other direction: where drawing succeeds there is no cycle below, because the drawings below
succeed too, each with a longer chain. -/

/-- The drawing of a name for a chain succeeds. -/
def Succeeds (a : Atlas) (name : String) (chain : ImportChain) : Prop :=
  ∃ depth animations log svg,
    (a.render (a.nested note closed depth) animations name chain log).1 = .ok svg

/-- A drawing that succeeds had what its scene imports, under names that were not on the chain. -/
theorem Succeeds.step {a : Atlas} {x y : String} {chain : ImportChain} (h : a.Succeeds x chain)
    (himports : a.Imports x y) : y ∉ chain.names ∧ a.Succeeds y (chain.push y) := by
  obtain ⟨depth, animations, log, svg, hsvg⟩ := h
  obtain ⟨scene, hpage, hy⟩ := himports
  rw [render_scene hpage] at hsvg
  have hdraws := Scene.render_draws
    ⟨a.settings, some (a.nested note closed depth), chain⟩ animations scene
  cases hresult : (runFrom (Scene.render ⟨a.settings, some (a.nested note closed depth), chain⟩
      animations scene) log).1 with
  | error e =>
    rw [hresult] at hsvg
    cases hsvg
  | ok text =>
    obtain ⟨hnew, studio, hstudio, log', markup, hmarkup⟩ := hdraws.had log text hresult y hy
    cases hstudio
    refine ⟨hnew, ?_⟩
    cases depth with
    | zero => cases hmarkup
    | succ depth => exact ⟨depth, true, _, markup, hmarkup⟩

/-- **Every path of imports from a drawing that succeeds was drawn**, by induction on the path. -/
theorem Succeeds.reach {a : Atlas} {x : String} {chain : ImportChain} (h : a.Succeeds x chain)
    (hx : x ∈ chain.names) {y : String} (hreach : Relation.ReflTransGen a.Imports x y) :
    ∃ longer : ImportChain, chain.names ⊆ longer.names ∧ y ∈ longer.names ∧
      a.Succeeds y longer := by
  induction hreach with
  | refl => exact ⟨chain, List.Subset.refl _, hx, h⟩
  | @tail y z _ himports ih =>
    obtain ⟨longer, hsub, hy, hsucceeds⟩ := ih
    obtain ⟨-, hnext⟩ := hsucceeds.step himports
    have hlonger : longer.names ⊆ (longer.push z).names := List.subset_append_left _ _
    have hz : z ∈ (longer.push z).names := List.mem_append_right _ List.mem_cons_self
    exact ⟨longer.push z, List.Subset.trans hsub hlonger, hz, hnext⟩

/-- Nothing that is reached from a drawing that succeeds imports itself. -/
theorem Succeeds.acyclic {a : Atlas} {x : String} {chain : ImportChain} (h : a.Succeeds x chain)
    (hx : x ∈ chain.names) {y : String} (hreach : Relation.ReflTransGen a.Imports x y) :
    ¬Relation.TransGen a.Imports y y := by
  intro hcycle
  obtain ⟨z, hyz, hzy⟩ := Relation.TransGen.tail'_iff.1 hcycle
  obtain ⟨longer, -, hy, hsucceeds⟩ := h.reach hx hreach
  obtain ⟨around, hsub, -, hlast⟩ := hsucceeds.reach hy hyz
  obtain ⟨hnew, -⟩ := hlast.step hzy
  exact hnew (hsub hy)

/-! ## Whole drawings

A drawing starts a chain with its own name.  What was said of chains is now said of drawings, with
nothing about fuel left. -/

/-- A name that is not on the chain is asked for, with the chain that it ends. -/
theorem mem_request (a : Atlas) (depth : Nat) (chain : ImportChain) (doc : Document)
    (target : NodeId) (name : String) (log : Requests) :
    (name, chain.push name) ∈ (runFrom (Scene.request
      ⟨a.settings, some (a.nested note closed (depth + 1)), chain⟩ doc target name
      (chain.push name)) log).2 := by
  have hasked : (name, chain.push name) ∈
      ((a.nested note closed (depth + 1)).drawing name (chain.push name) log).2 :=
    a.mem_requests depth true name _ List.mem_cons_self
  have hkeeps : Easel.Keeps ⟨a.settings, some (a.nested note closed (depth + 1)), chain⟩ []
      fun log => (name, chain.push name) ∈ log :=
    { drawing := fun _ _ _ hmem => by cases hmem
      imported := fun _ hstudio _ _ _ h => Option.some.inj hstudio ▸ h }
  rw [Scene.request, Scene.runFrom_bind]
  exact (Scene.receive_draws rfl doc target name _).keeps _ hkeeps _ hasked

/-- **Imports come to an end, and find exactly the cycles.**  For every atlas and every name `s`:

1. when imports are followed further than there are names, the drawing of a page is the one of
   `studio`, whatever would come below, so that the scenes of `studio` import from itself;
2. each chain that is asked for while `s` is drawn is free of repetitions, starts with `s`, ends
   with the name that is asked for, and each of its names is imported by the scene of the one
   before;
3. an import on a node that takes it, with a name for its argument, is a cycle exactly when the name
   is on the chain of the scene that makes it, whatever was imported before.  Then nothing is asked
   for; any other name is asked for with the longer chain;
4. if the drawing of `s` succeeds, nothing that it reaches through imports imports itself, directly
   or through others. -/
theorem import_recursion (a : Atlas) (animations : Bool) (s : String) :
    (∀ (base : Studio (StateM Requests) Failure) (depth : Nat), a.pages.length < depth →
      ∀ (name : String) (chain : ImportChain),
        a.render (a.nested note base depth) animations name chain
          = a.render (a.studio note) animations name chain) ∧
    (∀ request ∈ (a.render (a.studio note) animations s (.startingAt s) []).2,
      a.Trail s request.1 request.2) ∧
    (∀ (chain : ImportChain) (doc : Document) (target : NodeId) (raw : List Json)
      (log : Requests),
      let result := runFrom (perform ⟨a.settings, some (a.studio note), chain⟩ doc target
        Method.importDrawing.name raw) log
      ((∃ names, result.1 = .error (.fault (.importCycle names))) ↔
        accepts doc target .importDrawing = true ∧
          ∃ name ∈ chain.names, importName? Method.importDrawing.name raw = some name) ∧
      (∀ name, accepts doc target .importDrawing = true →
        importName? Method.importDrawing.name raw = some name →
        if name ∈ chain.names then result.2 = log else (name, chain.push name) ∈ result.2)) ∧
    (∀ svg, (a.render (a.studio note) animations s (.startingAt s) []).1 = .ok svg →
      ∀ x, Relation.ReflTransGen a.Imports s x → ¬Relation.TransGen a.Imports x x) := by
  refine ⟨fun base depth hdepth => a.render_nested note base hdepth animations,
    a.requests_trail _ animations s, fun chain doc target raw log => ⟨?_, ?_⟩, ?_⟩
  · exact Scene.perform_cycle_iff _ doc target raw log
  · intro name haccepts hname
    rw [Scene.perform_import _ doc target haccepts hname]
    split
    · next hmem =>
      rw [Scene.importInto_cycle _ doc target rfl hmem]
      rfl
    · next hnew =>
      rw [Scene.importInto_new _ doc target rfl hnew]
      exact a.mem_request a.pages.length chain doc target name log
  · intro svg hsvg x hreach
    have hsucceeds : a.Succeeds s (.startingAt s) := ⟨_, animations, [], svg, hsvg⟩
    exact hsucceeds.acyclic List.mem_cons_self hreach

/-- Two scenes that import each other. -/
def ring : Atlas where
  pages :=
    [("a", .scene ⟨[("top", .object [("import", .string "b")])]⟩),
      ("b", .scene ⟨[("top", .object [("group",
        .object [("group", .null), ("import", .string "a")])])]⟩)]
  settings := {}

/-- Neither of the two can be drawn. -/
theorem import_recursion_ring :
    ¬∃ svg, (ring.render (ring.studio note) true "a" (.startingAt "a") []).1 = .ok svg := by
  have hab : ring.Imports "a" "b" := ⟨_, rfl, by
    simp [Scene.imports, Scene.entryImports, Scene.allImports, Scene.callImports, importName?,
      Scene.arguments, Scene.listed, Method.name, Scene.scalarText?]⟩
  have hba : ring.Imports "b" "a" := ⟨_, rfl, by
    simp [Scene.imports, Scene.entryImports, Scene.allImports, Scene.callImports, importName?,
      Scene.arguments, Scene.listed, Scene.chains, Fields.get?, Fields.contains, Method.name,
      Scene.scalarText?]⟩
  rintro ⟨svg, hsvg⟩
  exact (import_recursion ring true "a").2.2.2 svg hsvg "a" .refl (.tail (.single hab) hba)

end Atlas
end Build
end Frontispiece
