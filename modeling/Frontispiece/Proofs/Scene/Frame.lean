import Frontispiece.Proofs.Drawing.FromTree
import Frontispiece.Proofs.Scene.Draw
import Frontispiece.Proofs.Scene.Import
import Mathlib.Data.List.Basic

/-!
# What a call leaves alone

A call on a node draws there, whatever calls its value nests and whatever they import.  So later
entries of a scene do not paint over what earlier ones drew.

## What is here

* `Scene.methods` — the methods that a scene calls, nested calls included.
* `Yields` — what holds of the value of a computation whenever it has one.  It composes.
* `perform_ready`, `call_ready`, `drawEntries_ready` — drawing stays where it may, by induction on
  the calls.
* `call_frame_and_paint_order` — so a call leaves all other nodes alone, and what a scene draws first
  is what its document shows first.

The theorem covers any value of a call, so its proof cannot go by the method alone.  It goes by
induction on the nested calls, with the invariant that the node at hand may be drawn on.  An import
is the one method that asks the studio, and what it gets may be any drawing; but it is copied below
the target like anything else.
-/

set_option autoImplicit false

namespace Frontispiece

namespace Scene

open Drawing (Document NodeId Branch Settings)

variable {σ ε α β : Type}

/-! ## The methods that are called

The methods are read off the values of a scene before anything is drawn.  A method counts as called
even if drawing stops before it. -/

mutual

/-- The methods of a call, with those of the calls on the node it answers with. -/
def callMethods (method : String) : Json → List String
  | .object fields =>
    method :: if chains method (.object fields) then allMethods (some method) fields else []
  | .null | .bool _ | .number _ | .string _ | .array _ => [method]

/-- The methods of calls, one method left out. -/
def allMethods (skip : Option String) : List (String × Json) → List String
  | [] => []
  | (method, spec) :: rest =>
    (if skip == some method then [] else callMethods method spec) ++ allMethods skip rest

end

/-- The methods that an entry calls. -/
def entryMethods : Json → List String
  | .object calls => allMethods none calls
  | .null | .bool _ | .number _ | .string _ | .array _ => []

/-- The methods that a scene calls. -/
def methods (scene : Scene) : List String :=
  scene.entries.flatMap fun entry => entryMethods entry.2

/-! ## What holds of values

A computation with a studio is a program that may ask for drawings.  What holds of its value is said
for all answers that the studio may give. -/

/-- What holds of the value of a computation whenever it has one. -/
def Yields (x : ExceptT (Error ε) (StateM σ) α) (p : α → Prop) : Prop :=
  ∀ s a, (runFrom x s).1 = .ok a → p a

namespace Yields

variable {p : α → Prop} {q : β → Prop}

theorem pure {a : α} (h : p a) :
    Yields (Pure.pure a : ExceptT (Error ε) (StateM σ) α) p := by
  intro _ b hb
  obtain rfl := Except.ok.inj hb
  exact h

theorem throw (e : Error ε) :
    Yields (MonadExcept.throw e : ExceptT (Error ε) (StateM σ) α) p := by
  intro _ _ h
  cases h

/-- What the second computation needs is what the first one yields. -/
theorem bind {x : ExceptT (Error ε) (StateM σ) α} {f : α → ExceptT (Error ε) (StateM σ) β}
    (hx : Yields x p) (hf : ∀ a, p a → Yields (f a) q) : Yields (x >>= f) q := by
  intro s b hb
  rw [runFrom_bind] at hb
  have hfirst := hx s
  generalize runFrom x s = first at hb hfirst
  obtain ⟨result, s'⟩ := first
  cases result with
  | error e => cases hb
  | ok a => exact hf a (hfirst a rfl) s' b hb

/-- A value of which nothing has to be known. -/
theorem after (x : ExceptT (Error ε) (StateM σ) α) {f : α → ExceptT (Error ε) (StateM σ) β}
    (hf : ∀ a, Yields (f a) q) : Yields (x >>= f) q :=
  bind (p := fun _ => True) (fun _ _ _ => trivial) fun a _ => hf a

theorem and {x : ExceptT (Error ε) (StateM σ) α} {r : α → Prop} (hp : Yields x p)
    (hr : Yields x r) : Yields x fun a => p a ∧ r a :=
  fun s a h => ⟨hp s a h, hr s a h⟩

theorem liftFault {result : Except Fault α} (h : Gives result p) :
    Yields (liftFault result : ExceptT (Error ε) (StateM σ) α) p := by
  cases result with
  | error fault => exact throw (.fault fault)
  | ok a => exact pure (h a rfl)

end Yields

/-! ## Drawing stays where it may

A call draws on its target, and then its nested calls draw on the node that it answers with.  Since
that node may be drawn on, induction on the nested calls goes through without knowing which node it
is. -/

variable {doc now : Document} {target id : NodeId} {keeps : Prop}

/-- Drawing starts at its target. -/
theorem Ready.start (doc : Document) (hid : id < doc.nodes.size) : Ready doc id keeps doc id :=
  ⟨.refl, .inl rfl, hid⟩

/-- Branches may be grafted on a node that is ready, which stays ready. -/
theorem Ready.graftAll : ∀ {branches : List Branch} {now : Document},
    Ready doc target keeps now id → Branch.AllDistinct branches →
    Ready doc target keeps (now.graftAll id branches) id
  | [], _, h, _ => h
  | branch :: rest, now, h, hbranches => by
    have hsize := (Document.graft_grows h.lt branch).size_le
    have hgraft : Ready doc target keeps (now.graft id branch).1 id :=
      ⟨h.drawn.graft h.within h.lt hbranches.1, h.within, Nat.lt_of_lt_of_le h.lt hsize⟩
    rw [Document.graftAll]
    exact hgraft.graftAll hbranches.2

/-- An import copies branches without repeated attributes below its target. -/
theorem importInto_grafts (easel : Easel (StateM σ) ε) (doc : Document) (id : NodeId)
    (args : List Arg) : Yields (importInto easel doc id args) fun result =>
      result.2 = id ∧ ∃ branches, Branch.AllDistinct branches ∧
        result.1 = doc.graftAll id branches := by
  cases hname : args.head?.bind Arg.text? with
  | none =>
    rw [importInto_unnamed easel doc id hname]
    exact .throw _
  | some name =>
    rw [importInto_named easel doc id hname]
    refine .after _ fun chain => ?_
    rw [request]
    cases easel.studio with
    | none => exact .throw _
    | some studio =>
      refine .after _ fun answer => ?_
      cases answer with
      | error cause => exact .throw _
      | ok markup =>
        rw [receive]
        split
        · exact .throw _
        · next tree htree =>
          have hdistinct : Branch.AllDistinct (Branch.ofTrees tree.children) := by
            cases tree with
            | text content => exact trivial
            | element tag attrs children =>
              exact Branch.ofTrees_distinct (Markup.parseSvg_readable htree).2
          exact .after _ fun _ => .pure ⟨rfl, _, hdistinct, rfl⟩

/-- **A method that is carried out** is known by its name and taken by its node.  It is an import, or
it does what the method does with the arguments as they are adapted. -/
theorem perform_does (easel : Easel (StateM σ) ε) (doc : Document) (id : NodeId) (name : String)
    (raw : List Json) : Yields (perform easel doc id name raw) fun answer =>
      ∃ method, Method.ofName? name = some method ∧ accepts doc id method = true ∧
        ((method = .importDrawing ∧ answer.2 = id ∧ ∃ branches, Branch.AllDistinct branches ∧
            answer.1 = doc.graftAll id branches) ∨
          ∃ args, apply doc id method args = .ok answer) := by
  rw [perform]
  split
  · exact .throw _
  · next method hmethod =>
    split
    · exact .throw _
    · next haccepts =>
      have haccepts : accepts doc id method = true := by simpa using haccepts
      split
      · exact .throw _
      · next args _ =>
        split
        · next hawaits =>
          have himport : method = .importDrawing := by simpa [Method.awaits] using hawaits
          exact fun s answer h => ⟨method, hmethod, haccepts,
            .inl ⟨himport, importInto_grafts easel doc id args s answer h⟩⟩
        · exact .liftFault fun answer h => ⟨method, hmethod, haccepts, .inr ⟨args, h⟩⟩

/-- A drawing's root takes no method for text. -/
theorem accepts_plain_root (hsvg : now.tag? Document.root = some "svg") :
    accepts now Document.root .plain = false := by
  rw [accepts]
  simp [Method.target, hsvg]

/-- **A method with its raw arguments draws where it may.** -/
theorem perform_ready (easel : Easel (StateM σ) ε) (hdoc : doc.WellFormed)
    (hsvg : keeps → doc.tag? Document.root = some "svg") (h : Ready doc target keeps now id)
    {name : String} (hname : keeps → name ≠ Method.clear.name) (raw : List Json) :
    Yields (perform easel now id name raw)
      fun result => Ready doc target keeps result.1 result.2 := by
  intro s result hresult
  obtain ⟨method, hmethod, haccepts, ⟨-, hnode, branches, hdistinct, hnext⟩ | ⟨args, happly⟩⟩ :=
    perform_does easel now id name raw s result hresult
  · rw [hnode, hnext]
    exact h.graftAll hdistinct
  · refine h.apply hdoc method args (fun hkeeps hroot => ⟨?_, ?_⟩) result happly
    · rintro rfl
      have hclear : Method.clear.name = name := by simpa using List.find?_some hmethod
      exact hname hkeeps hclear.symm
    · rintro rfl
      have htag := (h.drawn.framed hdoc).tag?_eq Document.root hdoc.root_lt
      rw [hroot, accepts_plain_root (htag.trans (hsvg hkeeps))] at haccepts
      cases haccepts

mutual

/-- **A call draws where it may**, by induction on the calls in its value. -/
theorem call_ready (easel : Easel (StateM σ) ε) (name : String) : ∀ (spec : Json)
    {doc now : Document} {target id : NodeId} {keeps : Prop}, doc.Reachable →
    (keeps → doc.tag? Document.root = some "svg") → Ready doc target keeps now id →
    (keeps → Method.clear.name ∉ callMethods name spec) →
    Yields (call easel id name now spec) fun result => Ready doc target keeps result.1 result.2
  | .object fields, doc, now, target, id, keeps, hdoc, hsvg, h, hclear => by
    rw [call]
    have hfirst : keeps → name ≠ Method.clear.name := fun hkeeps heq => by
      have hnot := hclear hkeeps
      rw [callMethods, heq] at hnot
      exact hnot List.mem_cons_self
    refine (perform_ready easel hdoc.wellFormed hsvg h hfirst _).bind fun (next, result) hnext => ?_
    dsimp only at hnext ⊢
    by_cases hchains : chains name (.object fields) = true
    · have hrest : keeps → Method.clear.name ∉ allMethods (some name) fields := fun hkeeps => by
        have hnot := hclear hkeeps
        rw [callMethods, if_pos hchains] at hnot
        exact fun hmem => hnot (List.mem_cons_of_mem _ hmem)
      rw [if_pos hchains]
      exact (callAll_ready easel (some name) fields hdoc hsvg hnext hrest).bind
        fun _ hlast => .pure hlast
    · rw [if_neg hchains]
      exact .bind (.pure hnext) fun _ hlast => .pure hlast
  | .null, _, _, _, _, _, hdoc, hsvg, h, hclear
  | .bool _, _, _, _, _, _, hdoc, hsvg, h, hclear
  | .number _, _, _, _, _, _, hdoc, hsvg, h, hclear
  | .string _, _, _, _, _, _, hdoc, hsvg, h, hclear
  | .array _, _, _, _, _, _, hdoc, hsvg, h, hclear =>
    perform_ready easel hdoc.wellFormed hsvg h
      (fun hkeeps heq => hclear hkeeps (heq ▸ List.mem_cons_self)) _

/-- The same for the calls of fields. -/
theorem callAll_ready (easel : Easel (StateM σ) ε) (skip : Option String) :
    ∀ (calls : List (String × Json)) {doc now : Document} {target id : NodeId} {keeps : Prop},
    doc.Reachable → (keeps → doc.tag? Document.root = some "svg") →
    Ready doc target keeps now id → (keeps → Method.clear.name ∉ allMethods skip calls) →
    Yields (callAll easel id skip now calls) fun next => Ready doc target keeps next id
  | [], _, _, _, _, _, _, _, h, _ => .pure h
  | (name, spec) :: rest, doc, now, target, id, keeps, hdoc, hsvg, h, hclear => by
    rw [callAll]
    have hrest : keeps → Method.clear.name ∉ allMethods skip rest := fun hkeeps hmem =>
      hclear hkeeps (List.mem_append_right _ hmem)
    split
    · exact .bind (.pure h) fun _ h => callAll_ready easel skip rest hdoc hsvg h hrest
    · next hskip =>
      have hfirst : keeps → Method.clear.name ∉ callMethods name spec := fun hkeeps hmem => by
        have hnot := hclear hkeeps
        rw [allMethods, if_neg hskip] at hnot
        exact hnot (List.mem_append_left _ hmem)
      have hcall := call_ready easel name spec hdoc hsvg h hfirst
      -- the call on its own base: the document grows, so that the node of the calls is still there
      have hnow := h.drawn.reachable hdoc
      have hgrows := call_ready easel name spec hnow False.elim
        (.start now h.lt) False.elim
      have hboth := hcall.and hgrows
      rw [map_eq_pure_bind, bind_assoc]
      refine hboth.bind fun (next, _) ⟨hnext, hgrown⟩ => ?_
      rw [pure_bind]
      have hback := h.back hnext (hgrown.drawn.framed hnow.wellFormed).size_le
      exact callAll_ready easel skip rest hdoc hsvg hback hrest

end

/-- An entry of a scene leaves the root ready for the next, if it does not clear what has to
stay. -/
theorem drawEntry_ready (easel : Easel (StateM σ) ε) (hdoc : doc.Reachable)
    (hsvg : keeps → doc.tag? Document.root = some "svg")
    (h : Ready doc target keeps now Document.root) (name : String) (value : Json)
    (hclear : keeps → Method.clear.name ∉ entryMethods value) :
    Yields (drawEntry easel now name value)
      fun next => Ready doc target keeps next Document.root := by
  cases value with
  | object calls => exact callAll_ready easel none calls hdoc hsvg h hclear
  | null => exact .pure h
  | array items => exact .throw _
  | bool _ | number _ | string _ =>
    rw [drawEntry.eq_def]
    dsimp only
    split
    · exact .pure (h.setAttr name _)
    · exact .pure h

/-- **Entries of a scene draw at the root**, one after the other. -/
theorem drawEntries_ready (easel : Easel (StateM σ) ε) (hdoc : doc.Reachable)
    (hsvg : keeps → doc.tag? Document.root = some "svg") : ∀ (entries : List (String × Json))
    {now : Document}, Ready doc target keeps now Document.root →
    (keeps → Method.clear.name ∉ entries.flatMap fun entry => entryMethods entry.2) →
    Yields (drawEntries easel now entries)
      fun next => Ready doc target keeps next Document.root
  | [], _, h, _ => .pure h
  | (name, value) :: rest, now, h, hclear => by
    have hfirst : keeps → Method.clear.name ∉ entryMethods value := fun hkeeps hmem =>
      hclear hkeeps (List.mem_append_left _ hmem)
    have hrest : keeps → Method.clear.name ∉ rest.flatMap fun entry => entryMethods entry.2 :=
      fun hkeeps hmem => hclear hkeeps (List.mem_append_right _ hmem)
    exact (drawEntry_ready easel hdoc hsvg h name value hfirst).bind
      fun _ h => drawEntries_ready easel hdoc hsvg rest h hrest

/-! ## Calls and entries

Every entry is called on the root, so the nodes that one entry made are left alone by the next one.
Definitions are the exception, as all entries share them, and clearing the root is the other. -/

/-- Entries are drawn after those before them. -/
theorem drawEntries_append (easel : Easel (StateM σ) ε) (second : List (String × Json)) :
    ∀ (first : List (String × Json)) (doc : Document),
    drawEntries easel doc (first ++ second)
      = drawEntries easel doc first >>= fun doc => drawEntries easel doc second
  | [], _ => by rw [List.nil_append, drawEntries, pure_bind]
  | (name, value) :: rest, doc => by
    rw [List.cons_append, drawEntries, drawEntries, bind_assoc]
    exact bind_congr fun doc => drawEntries_append easel second rest doc

theorem tag?_root_ofSettings (settings : Settings) :
    (Document.ofSettings settings).tag? Document.root = some "svg" := rfl

/-- **A call leaves other nodes alone**, and the root that it is not made on but for definitions. -/
theorem call_spares (easel : Easel (StateM σ) ε) (hdoc : doc.Reachable)
    (htarget : target < doc.nodes.size) {name : String} {spec : Json} {s : σ} {result : NodeId}
    (hcall : (runFrom (call easel target name doc spec) s).1 = .ok (now, result)) :
    (∀ id < doc.nodes.size, id ≠ target → id ≠ Document.root → ¬doc.IsDefs id →
      now.nodes[id]? = doc.nodes[id]?) ∧
    (target ≠ Document.root →
      now.kind? Document.root = doc.kind? Document.root ∧
      now.parent? Document.root = doc.parent? Document.root ∧
      (now.children Document.root = doc.children Document.root ∨
        (∀ child ∈ doc.children Document.root, doc.tag? child ≠ some "defs") ∧
        ∃ new, doc.nodes.size ≤ new ∧ now.tag? new = some "defs" ∧
          now.children Document.root = new :: doc.children Document.root)) := by
  have hready := call_ready easel name spec hdoc False.elim
    (.start doc htarget) False.elim s (now, result) hcall
  have hframed := hready.drawn.framed hdoc.wellFormed
  refine ⟨fun id hlt hne hroot hdefs => hframed.same id hlt hroot ?_, fun hroot => ?_⟩
  · rintro (heq | hnew | hin)
    · exact hne heq
    · exact absurd hlt (Nat.not_lt.2 hnew)
    · exact hdefs hin
  · rw [Document.kind?, Document.kind?, Document.parent?, Document.parent?, Document.children_eq,
      Document.children_eq]
    rcases hframed.root_same hroot with hsame | ⟨hnone, node, new, hnode, hnew, htag, hnow⟩
    · rw [hsame]
      exact ⟨rfl, rfl, .inl rfl⟩
    · rw [hnow, hnode]
      rw [Document.children_eq, hnode] at hnone
      exact ⟨rfl, rfl, .inr ⟨hnone, new, hnew, htag, rfl⟩⟩

/-- **What a scene draws first is what it shows first.** -/
theorem draw_prefix (easel : Easel (StateM σ) ε) {first second : List (String × Json)} {s : σ}
    {part whole : Document} (hclear : Method.clear.name ∉ (Scene.mk (first ++ second)).methods)
    (hpart : (runFrom (draw easel ⟨first⟩) s).1 = .ok part)
    (hwhole : (runFrom (draw easel ⟨first ++ second⟩) s).1 = .ok whole) :
    part.shapes.map part.branch <+: whole.shapes.map whole.branch := by
  have hstart := Document.ofSettings_reachable easel.settings
  have hfirst := drawEntries_ready easel hstart False.elim first
    (.start _ hstart.wellFormed.root_lt) False.elim s part hpart
  have hreachable := hfirst.drawn.reachable hstart
  have hsvg : part.tag? Document.root = some "svg" :=
    ((hfirst.drawn.framed hstart.wellFormed).tag?_eq _ hstart.wellFormed.root_lt).trans
      (tag?_root_ofSettings easel.settings)
  -- the whole goes on with the document of the part
  rw [draw] at hpart hwhole
  rw [drawEntries_append, runFrom_bind] at hwhole
  generalize runFrom (drawEntries easel (Document.ofSettings easel.settings) first) s = run
    at hpart hwhole
  obtain ⟨answer, s'⟩ := run
  obtain rfl : answer = .ok part := hpart
  have hsecond : Method.clear.name ∉ second.flatMap fun entry => entryMethods entry.2 := by
    rw [methods, List.flatMap_append] at hclear
    exact fun hmem => hclear (List.mem_append_right _ hmem)
  have hpartReady : Ready part Document.root True part Document.root :=
    .start part hreachable.wellFormed.root_lt
  have hready := drawEntries_ready easel hreachable (fun _ => hsvg) second hpartReady
    (fun _ => hsecond) s' whole hwhole
  exact hready.drawn.branches_prefix hreachable trivial

/-- **What a call touches.**

1. A call on a node of a reachable document, with any value and any studio, leaves every node of the
   document as it is — kind, attributes, text, parent and children —, other than the node, the root
   and the definitions at the root.  A root that the call is not made on stays as it is too, but for
   definitions in front of its children if there were none.
2. So a scene without a call of `clear` does not paint over what it drew: of a scene and a first
   part of it that both can be drawn, from the same state of the studio, the branches at the root of
   the part, definitions aside, are the first ones at the root of the whole. -/
theorem call_frame_and_paint_order (easel : Easel (StateM σ) ε) :
    (∀ (doc now : Document) (target result : NodeId) (name : String) (spec : Json) (s : σ),
      doc.Reachable → target < doc.nodes.size →
      (runFrom (call easel target name doc spec) s).1 = .ok (now, result) →
      (∀ id < doc.nodes.size, id ≠ target → id ≠ Document.root → ¬doc.IsDefs id →
        now.nodes[id]? = doc.nodes[id]?) ∧
      (target ≠ Document.root →
        now.kind? Document.root = doc.kind? Document.root ∧
        now.parent? Document.root = doc.parent? Document.root ∧
        (now.children Document.root = doc.children Document.root ∨
          (∀ child ∈ doc.children Document.root, doc.tag? child ≠ some "defs") ∧
          ∃ new, doc.nodes.size ≤ new ∧ now.tag? new = some "defs" ∧
            now.children Document.root = new :: doc.children Document.root))) ∧
    (∀ (first second : List (String × Json)) (s : σ) (part whole : Document),
      Method.clear.name ∉ (Scene.mk (first ++ second)).methods →
      (runFrom (draw easel ⟨first⟩) s).1 = .ok part →
      (runFrom (draw easel ⟨first ++ second⟩) s).1 = .ok whole →
      part.shapes.map part.branch <+: whole.shapes.map whole.branch) := by
  refine ⟨fun doc now target result name spec s hdoc htarget hcall => ?_,
    fun first second s part whole hclear hpart hwhole => ?_⟩
  · exact call_spares easel hdoc htarget hcall
  · exact draw_prefix easel hclear hpart hwhole

/-- A studio with the same drawing for every name. -/
def sameStudio : Studio (StateM Unit) String where
  drawing _ _ := pure (.ok "<svg><circle/></svg>")
  imported _ _ := pure ()

/-- Its easel. -/
def sameEasel : Easel (StateM Unit) String where
  settings := {}
  studio := some sameStudio
  chain := ⟨[]⟩

/-- Two groups. -/
def twoGroups : Document :=
  ((Document.withRoot "svg").appendElement Document.root "g").1.appendElement Document.root "g" |>.1

/-- A call that imports a drawing and then defines a symbol. -/
def importAndDefine : Json :=
  .object [("import", .string "other"), ("symbol", .object [("symbol", .null), ("rect", .null)])]

/-- Entries that draw a group, and then a symbol and a rectangle. -/
def groupEntries : List (String × Json) := [("first", .object [("group", .null)])]
def laterEntries : List (String × Json) := [("then", .object [("symbol", .null), ("rect", .null)])]

/-- An import into one of two groups leaves the other alone, and later entries leave what was
drawn. -/
theorem call_frame_and_paint_order_groups :
    (∃ now result, (runFrom (call sameEasel 1 "import" twoGroups importAndDefine) ()).1
        = .ok (now, result) ∧ now.nodes[2]? = twoGroups.nodes[2]?) ∧
    ∃ part whole, (runFrom (draw sameEasel ⟨groupEntries⟩) ()).1 = .ok part ∧
      (runFrom (draw sameEasel ⟨groupEntries ++ laterEntries⟩) ()).1 = .ok whole ∧
      part.shapes.map part.branch <+: whole.shapes.map whole.branch := by
  have hcall : ∃ now result, (runFrom (call sameEasel 1 "import" twoGroups importAndDefine) ()).1
      = .ok (now, result) := by
    have htrue : (runFrom (call sameEasel 1 "import" twoGroups importAndDefine) ()).1.toBool
        = true := by
      decide +kernel
    cases hanswer : (runFrom (call sameEasel 1 "import" twoGroups importAndDefine) ()).1 with
    | error e =>
      rw [hanswer] at htrue
      cases htrue
    | ok pair => exact ⟨pair.1, pair.2, rfl⟩
  have hpart : ∃ part, (runFrom (draw sameEasel ⟨groupEntries⟩) ()).1 = .ok part := ⟨_, by rfl⟩
  have hwhole : ∃ whole, (runFrom (draw sameEasel ⟨groupEntries ++ laterEntries⟩) ()).1
      = .ok whole := ⟨_, by rfl⟩
  obtain ⟨hspares, hprefix⟩ := call_frame_and_paint_order sameEasel
  obtain ⟨now, result, hcall⟩ := hcall
  obtain ⟨part, hpart⟩ := hpart
  obtain ⟨whole, hwhole⟩ := hwhole
  have hreachable : twoGroups.Reachable :=
    ((Document.Reachable.withRoot "svg").appendElement (by decide) "g").appendElement (by decide) "g"
  have hothers := (hspares twoGroups now 1 result _ _ () hreachable (by decide) hcall).1
  refine ⟨⟨now, result, hcall, hothers 2 (by decide) (by decide) (by decide) ?_⟩, part, whole, hpart,
    hwhole, hprefix _ _ () part whole (by decide) hpart hwhole⟩
  rintro ⟨-, htag⟩
  exact absurd htag (by decide)

end Scene
end Frontispiece
