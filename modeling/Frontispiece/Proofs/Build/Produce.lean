import Frontispiece.Build.Run
import Frontispiece.Proofs.Build.Depth

/-!
# One descriptor

A build expands a descriptor, renders what it stands for, has the tools check the text and make it
small, and delivers it.  Until delivery nothing is written.  What comes of this is said here by two
relations between a workspace and an outcome, which speak of the files, the compiler, the scene and
the tools, and not of the steps of a build.

## What is here

* `Plan.produce` — a descriptor expanded, rendered, checked and made small; `Plan.process_eq` says
  that only delivery is left after it.
* `Plan.Renders` — what rendering comes to: no template, no text, no scene, no drawing, or a text.
* `Plan.Produces` — what a descriptor comes to: no expansion, no rendering, a refusal by the tools,
  or a text; `Plan.produce_iff` says that `produce` answers so.
* `Plan.produce_keeps` — producing a text leaves alone what a build has.

`Produces` is the specification of one descriptor: a relation between a workspace and what comes
out, in which each way to fail has a case of its own with the failure that it leads to.  It does not
mention the order of steps, nor what is told in between.  `produce_iff` says that the program
computes it, in both directions, so that a theorem that is stated with the relation cannot be true
for the wrong reason.

The tools are functions that get the state in which earlier calls have left them.  So they are asked
in the workspace at hand, and what they say of a text may depend on everything that they were asked
before.
-/

set_option autoImplicit false

namespace Frontispiece
namespace Build

open Frontispiece.Computation (Refines)
open Project (Descriptor Expansion OutputIndex Registry)
open Scene (Easel ImportChain)

/-- A relation that asking the tools moves along, too. -/
structure Plan.Asking (p : Plan) (R : Workspace → Workspace → Prop) : Prop extends p.Telling R where
  tasks : ∀ (w : Workspace) (tasks : List Task), R w { w with tasks }

namespace Plan

/-! ## Producing a text

Carrying out a descriptor is producing its text and delivering it.  All reasons for which a
descriptor fails without a trace in the files lie in the first half. -/

/-- A descriptor expanded, rendered, checked and made small: what it is the text of, and the
text. -/
def produce (p : Plan) (index : OutputIndex) (d : Descriptor) : Building (Descriptor × String) := do
  debugLog (quoted d.input ++ " (" ++ d.kind.name ++ "): pending")
  let ⟨target, animations⟩ ← target index d
  let text ← p.render animations target
  p.validate target text
  let text ← p.minify target text
  pure (target, text)

/-- Only delivery is left when a text was produced. -/
theorem process_eq (p : Plan) (index : OutputIndex) (d : Descriptor) :
    p.process index d = p.produce index d >>= fun (target, text) => p.deliver target text := by
  simp only [process, produce, bind_assoc, pure_bind]

section

variable {p : Plan} {R : Workspace → Workspace → Prop}

theorem target_moves (h : p.Telling R) (index : OutputIndex) (d : Descriptor) :
    Moves R (target index d) := by
  rw [target]
  split
  · refine h.bind h.get fun w => ?_
    split
    · exact h.throw _
    · exact h.bind (h.debugLog _) fun _ => h.pure _
  · exact h.bind (h.debugLog _) fun _ => h.pure _

theorem ask_moves (h : p.Asking R) (call : ToolCall) (text : String) : Moves R (p.ask call text) :=
  fun w => h.trans (h.journal w (w.journal.ask call) rfl) (h.tasks _ (⟨call, text, w.files⟩ :: w.tasks))

theorem validate_moves (h : p.Asking R) (d : Descriptor) (text : String) :
    Moves R (p.validate d text) := by
  rw [validate]
  refine h.bind (ask_moves h _ _) fun _ => h.bind (h.tell _) fun _ => ?_
  split
  · exact h.bind (h.throw _) fun _ => h.debugLog _
  · exact h.bind (h.pure _) fun _ => h.debugLog _

theorem minify_moves (h : p.Asking R) (d : Descriptor) (text : String) :
    Moves R (p.minify d text) := by
  rw [minify]
  split
  · exact h.bind (ask_moves h _ _) fun _ => h.bind (h.tell _) fun _ => h.bind (h.debugLog _) fun _ =>
      h.pure _
  · exact h.pure text

/-- Producing a text moves along every relation that telling, compiling and asking move along. -/
theorem produce_moves (h : p.Asking R) (index : OutputIndex) (d : Descriptor) :
    Moves R (p.produce index d) := by
  rw [produce]
  exact h.bind (h.debugLog _) fun _ => h.bind (target_moves h.toTelling index d) fun e =>
    h.bind (renderWithin_moves h.toTelling _ _ _ _) fun text => h.bind (validate_moves h _ _) fun _ =>
      h.bind (minify_moves h _ _) fun _ => h.pure _

end

variable (p : Plan)

theorem asking_same : p.Asking Workspace.Same where
  toTelling := p.telling_same
  tasks _ _ := ⟨rfl, rfl, rfl⟩

/-- **Producing a text changes nothing that a build has.** -/
theorem produce_keeps (index : OutputIndex) (d : Descriptor) : Keeps (p.produce index d) :=
  produce_moves p.asking_same index d

/-! ## Expansion

A variant is expanded to the descriptor that it varies, by walking the list.  This depends on the
descriptors alone and not on what has been built. -/

/-- The outputs that variants name. -/
def index : OutputIndex := .ofRegistry p.templates

/-- What a descriptor stands for: itself, or what it is a variant of. -/
def expansion (w : Workspace) (d : Descriptor) : Except Project.Fault Expansion :=
  if d.kind.isVariant then Project.expand w.templates p.index d else .ok ⟨d, true⟩

/-- A darkened descriptor has other data only. -/
theorem kind_of_darken {d dark : Descriptor} {kind : Project.Kind}
    (h : Project.darken d kind = .ok dark) : dark.kind = d.kind := by
  rw [Project.darken] at h
  split at h <;> cases h <;> rfl

/-- An expanded descriptor is no variant, and has the output of the one that it is made of. -/
theorem expandFrom_ok (r : Registry) (index : OutputIndex) : ∀ (fuel : Nat) (chain : List String)
    (d : Descriptor) {e : Expansion}, Project.expandFrom r index fuel chain d = .ok e →
    e.descriptor.out = d.out ∧ e.descriptor.kind.isVariant = false
  | 0, _, _, _, h => by cases h
  | fuel + 1, chain, d, e, h => by
    rw [Project.expandFrom] at h
    split at h
    · next hbase =>
      cases h
      exact ⟨rfl, by revert hbase; cases d.kind <;> decide⟩
    split at h
    · cases h
    · obtain ⟨position, -, h⟩ := exists_of_bind_ok h
      split at h
      · cases h
      · obtain ⟨base, hexpand, h⟩ := exists_of_bind_ok h
        have hbase := (expandFrom_ok r index fuel _ _ hexpand).2
        dsimp only at h
        split at h
        · obtain ⟨descriptor, hdarken, h⟩ := exists_of_bind_ok h
          cases h
          exact ⟨rfl, (congrArg Project.Kind.isVariant (kind_of_darken hdarken)).trans hbase⟩
        · cases h
          exact ⟨rfl, hbase⟩

variable {p} {w w' : Workspace} {d : Descriptor} {e : Expansion}

theorem expansion_ok (h : p.expansion w d = .ok e) :
    e.descriptor.out = d.out ∧ e.descriptor.kind.isVariant = false := by
  rw [expansion] at h
  split at h
  · exact expandFrom_ok _ _ _ _ d h
  · next hbase =>
    cases h
    exact ⟨rfl, by simpa using hbase⟩

/-- Looking up what a descriptor stands for only tells. -/
theorem runFrom_target (d : Descriptor) (w : Workspace) : ∃ w', w.Quiet w' ∧
    runFrom (target p.index d) w = ((p.expansion w d).mapError .template, w') := by
  rw [target, expansion]
  split
  · rw [runFrom_bind_ok (runFrom_get w)]
    split
    · next hexpand =>
      rw [hexpand]
      exact ⟨w, ⟨rfl, rfl, rfl, rfl⟩, rfl⟩
    · next hexpand =>
      rw [hexpand]
      exact ⟨{ w with journal := w.journal.log .debug _ }, ⟨rfl, rfl, rfl, rfl⟩, rfl⟩
  · exact ⟨{ w with journal := w.journal.log .debug _ }, ⟨rfl, rfl, rfl, rfl⟩, rfl⟩

/-! ## Rendering

A template is read and compiled; then the text is the artifact, or the scene that is to be drawn.
Each way to fail is a constructor, so that nothing that can go wrong is left out by a slip in a
formula. -/

/-- The answer of a scene that is drawn in a workspace and imports from the descriptors there. -/
def drawn (p : Plan) (w : Workspace) (e : Expansion) (scene : Scene) :
    Except (Scene.Error Failure) String :=
  let studio := studio e.descriptor.data fun d chain =>
    (p.renderWithin (importDepth - 1) true d chain).run
  let easel : Easel Working Failure :=
    ⟨{ pretty := p.debug }, some studio, .startingAt e.descriptor.input⟩
  (Scene.runFrom (Scene.render easel e.animations scene) w).1

/-- The template of an expanded descriptor compiles to a text, and leaves this on the desk.  It is read
from the files that are there, and compiled with what was on the desk before. -/
def Compiles (p : Plan) (w : Workspace) (e : Expansion) (text : String) (desk : Template.Desk) :
    Prop :=
  ∃ source, w.files.readText (p.layout.templatePath e.descriptor.input) = .ok source ∧
    Template.compile p.compiler w.files source e.descriptor.data w.desk = (.ok text, desk)

/-- What rendering an expanded descriptor comes to in a workspace.  A note is the text that its
template compiles to, and a drawing is drawn from the scene of that text. -/
inductive Renders (p : Plan) (w : Workspace) (e : Expansion) : Except Failure String → Prop
  | unreadTemplate {cause : Files.Fault}
    (hsource : w.files.readText (p.layout.templatePath e.descriptor.input) = .error cause) :
    p.Renders w e (.error (.readTemplate (p.layout.templatePath e.descriptor.input) cause))
  | uncompiled {source : String} {fault : Template.Fault} {desk : Template.Desk}
    (hsource : w.files.readText (p.layout.templatePath e.descriptor.input) = .ok source)
    (hcompile : Template.compile p.compiler w.files source e.descriptor.data w.desk
      = (.error fault, desk)) :
    p.Renders w e (.error (.compile fault))
  | note {text : String} {desk : Template.Desk} (hcompiles : p.Compiles w e text desk)
    (hkind : e.descriptor.kind = .markdown) :
    p.Renders w e (.ok text)
  | unreadScene {text : String} {desk : Template.Desk} {fault : Scene.Fault}
    (hcompiles : p.Compiles w e text desk) (hkind : e.descriptor.kind = .svg)
    (hscene : Scene.read text = .error fault) :
    p.Renders w e (.error (.scene (.fault fault)))
  | undrawn {text : String} {desk : Template.Desk} {scene : Scene} {cause : Scene.Error Failure}
    (hcompiles : p.Compiles w e text desk) (hkind : e.descriptor.kind = .svg)
    (hscene : Scene.read text = .ok scene)
    (hdrawn : p.drawn { w with desk := { desk with log := [] } } e scene = .error cause) :
    p.Renders w e (.error (.scene cause))
  | drawing {text markup : String} {desk : Template.Desk} {scene : Scene}
    (hcompiles : p.Compiles w e text desk) (hkind : e.descriptor.kind = .svg)
    (hscene : Scene.read text = .ok scene)
    (hdrawn : p.drawn { w with desk := { desk with log := [] } } e scene = .ok markup) :
    p.Renders w e (.ok markup)

theorem Compiles.unique {text text' : String} {desk desk' : Template.Desk}
    (h : p.Compiles w e text desk) (h' : p.Compiles w e text' desk') : text = text' ∧ desk = desk' := by
  obtain ⟨source, hsource, hcompile⟩ := h
  obtain ⟨source', hsource', hcompile'⟩ := h'
  cases hsource.symm.trans hsource'
  cases hcompile.symm.trans hcompile'
  exact ⟨rfl, rfl⟩

/-- Rendering comes to one thing. -/
theorem Renders.unique {outcome outcome' : Except Failure String} (h : p.Renders w e outcome)
    (h' : p.Renders w e outcome') : outcome = outcome' := by
  have hcompiles : ∀ {text text' desk desk'}, p.Compiles w e text desk →
      p.Compiles w e text' desk' → text = text' ∧ desk = desk' := Compiles.unique
  cases h <;> cases h' <;> grind [Compiles]

/-- A scene is drawn alike in workspaces that differ in their journals. -/
theorem drawn_quiet (hquiet : w.Quiet w') (scene : Scene) : p.drawn w e scene = p.drawn w' e scene := by
  have hstudio := studio_refines p.respects_quiet (E := fun _ => False) e.descriptor.data
    (.startingAt e.descriptor.input) fun d name hnew =>
      renderWithin_quiet (p := p) (importDepth - 1) true d _
        (ImportChain.nodup_push (List.nodup_singleton _) hnew)
  have hscene := Scene.render_refines { pretty := p.debug } hstudio e.animations scene w w' hquiet
  obtain ⟨error, -, hstems⟩ | ⟨hanswer, -⟩ := hscene
  · cases error <;> exact hstems.elim
  · exact hanswer

/-- What drawing the scene of a text answers. -/
theorem answer_drawing (w : Workspace) (e : Expansion) (text : String) :
    (runFrom (p.drawing (studio e.descriptor.data fun d chain =>
      (p.renderWithin (importDepth - 1) true d chain).run) e.animations
        (.startingAt e.descriptor.input) text) w).1
    = match Scene.read text with
      | .error fault => .error (.scene (.fault fault))
      | .ok scene => (p.drawn w e scene).mapError .scene := by
  rw [Plan.drawing]
  cases Scene.read text with
  | error fault => rfl
  | ok scene => rfl

theorem answer_render (hquiet : w.Quiet w') (animations : Bool) (d : Descriptor) :
    (runFrom (p.render animations d) w').1 = (runFrom (p.render animations d) w).1 := by
  have hrefines := renderWithin_quiet (p := p) importDepth animations d (.startingAt d.input)
    (List.nodup_singleton _) w w' hquiet
  obtain ⟨_, -, himpossible⟩ | ⟨hanswer, -⟩ := hrefines
  · exact himpossible.elim
  · exact hanswer.symm

/-- What rendering comes to, as the steps of a build find it.  The lines of the log in between matter
to none of it. -/
theorem renders_render (hbase : e.descriptor.kind.isVariant = false) :
    p.Renders w e (runFrom (p.render e.animations e.descriptor) w).1 := by
  -- the chain that is followed starts with the template itself
  have hrun : runFrom (p.render e.animations e.descriptor) w = runFrom
      (p.renderWithin (importDepth - 1 + 1) e.animations e.descriptor
        (.startingAt e.descriptor.input)) w := rfl
  rw [hrun, renderWithin, runFrom_bind, runFrom_source]
  cases hsource : w.files.readText (p.layout.templatePath e.descriptor.input) with
  | error cause => exact .unreadTemplate hsource
  | ok source =>
    dsimp only [Except.mapError]
    rw [runFrom_bind, runFrom_compile]
    rcases hcompile : Template.compile p.compiler w.files source e.descriptor.data w.desk
      with ⟨fault | text, desk⟩
    · exact .uncompiled hsource hcompile
    have hcompiles : p.Compiles w e text desk := ⟨source, hsource, hcompile⟩
    dsimp only [Except.mapError]
    rw [runFrom_bind]
    cases hkind : e.descriptor.kind with
    | markdown => exact .note hcompiles hkind
    | svg =>
      -- the note in the log is the only thing between the template and its scene
      have hquiet : Workspace.Quiet { w with desk := { desk with log := [] } }
          (runFrom (debugLog (quoted e.descriptor.input ++ ": compiled")) (w.adopt desk)).2 :=
        ⟨rfl, rfl, rfl, rfl⟩
      show p.Renders w e (runFrom (p.drawing _ e.animations _ text)
        (runFrom (debugLog (quoted e.descriptor.input ++ ": compiled")) (w.adopt desk)).2).1
      rw [answer_drawing]
      cases hscene : Scene.read text with
      | error fault => exact .unreadScene hcompiles hkind hscene
      | ok scene =>
        dsimp only
        rw [← drawn_quiet hquiet scene]
        cases hdrawn : p.drawn { w with desk := { desk with log := [] } } e scene with
        | error cause => exact .undrawn hcompiles hkind hscene hdrawn
        | ok markup => exact .drawing hcompiles hkind hscene hdrawn
    | _ =>
      rw [hkind] at hbase
      cases hbase

/-- **What rendering comes to.** -/
theorem render_iff (hbase : e.descriptor.kind.isVariant = false) {outcome : Except Failure String} :
    (runFrom (p.render e.animations e.descriptor) w).1 = outcome ↔ p.Renders w e outcome :=
  ⟨fun h => h ▸ renders_render hbase, (renders_render hbase).unique⟩

/-! ## The tools

The tools are asked twice, once whether the text is valid and once for its short form.  They keep a
state, so the second answer comes from the state that the first question left. -/

/-- Whether the tools find a text valid that is rendered in a workspace. -/
def approves (p : Plan) (w : Workspace) (d : Descriptor) (text : String) : Bool :=
  ((p.tools.toolsAfter w.tasks w.files).validate d.kind text).1

/-- What the tools make of a text that they have found valid, if the descriptor wants it small. -/
def finished (p : Plan) (w : Workspace) (d : Descriptor) (text : String) : String :=
  if d.minify then
    let tools := p.tools.toolsAfter (⟨.validate d.kind, text, w.files⟩ :: w.tasks) w.files
    (tools.minify d.kind p.debug text).1
  else text

theorem runFrom_ask (p : Plan) (call : ToolCall) (text : String) (w : Workspace) :
    runFrom (p.ask call text) w = (.ok (p.tools.toolsAfter w.tasks w.files),
      { w with journal := w.journal.ask call, tasks := ⟨call, text, w.files⟩ :: w.tasks }) := rfl

theorem runFrom_validate (p : Plan) (d : Descriptor) (text : String) (w : Workspace) :
    ∃ w', w'.files = w.files ∧ w'.tasks = ⟨.validate d.kind, text, w.files⟩ :: w.tasks ∧
      runFrom (p.validate d text) w
        = (if p.approves w d text then .ok () else .error (.invalid d.kind d.input), w') := by
  rw [validate, runFrom_bind_ok (runFrom_ask p (.validate d.kind) text w), approves]
  rcases (p.tools.toolsAfter w.tasks w.files).validate d.kind text with ⟨valid, messages⟩
  cases valid with
  | false => refine ⟨_, ?_, ?_, rfl⟩ <;> rfl
  | true => refine ⟨_, ?_, ?_, rfl⟩ <;> rfl

theorem runFrom_minify (p : Plan) (d : Descriptor) (text : String) (w : Workspace) :
    (runFrom (p.minify d text) w).1 = .ok (if d.minify then
      ((p.tools.toolsAfter w.tasks w.files).minify d.kind p.debug text).1 else text) := by
  rw [minify]
  split
  · rfl
  · rfl

/-! ## What a descriptor comes to

Putting the parts together gives a relation with one constructor for each outcome, and the theorem
that it is exactly what the program computes. -/

/-- What a descriptor comes to in a workspace: what it is the text of, and the text. -/
inductive Produces (p : Plan) (w : Workspace) (d : Descriptor) :
    Except Failure (Descriptor × String) → Prop
  | unexpanded {fault : Project.Fault} (hexpansion : p.expansion w d = .error fault) :
    p.Produces w d (.error (.template fault))
  | unrendered {e : Expansion} {cause : Failure} (hexpansion : p.expansion w d = .ok e)
    (hrenders : p.Renders w e (.error cause)) :
    p.Produces w d (.error cause)
  | refused {e : Expansion} {text : String} (hexpansion : p.expansion w d = .ok e)
    (hrenders : p.Renders w e (.ok text)) (hrefused : p.approves w e.descriptor text = false) :
    p.Produces w d (.error (.invalid e.descriptor.kind e.descriptor.input))
  | finished {e : Expansion} {text : String} (hexpansion : p.expansion w d = .ok e)
    (hrenders : p.Renders w e (.ok text)) (happroved : p.approves w e.descriptor text = true) :
    p.Produces w d (.ok (e.descriptor, p.finished w e.descriptor text))

/-- A descriptor comes to one thing. -/
theorem Produces.unique {outcome outcome' : Except Failure (Descriptor × String)}
    (h : p.Produces w d outcome) (h' : p.Produces w d outcome') : outcome = outcome' := by
  have hrenders : ∀ {e outcome outcome'}, p.Renders w e outcome → p.Renders w e outcome' →
      outcome = outcome' := Renders.unique
  cases h <;> cases h' <;> grind

/-- What becomes of a text that was rendered. -/
def checked (p : Plan) (d : Descriptor) (text : String) : Building (Descriptor × String) := do
  p.validate d text
  let text ← p.minify d text
  return (d, text)

/-- What the tools make of a rendered text, when neither the files nor they have changed since
rendering began. -/
theorem answer_checked (p : Plan) (d : Descriptor) (text : String) (hfiles : w'.files = w.files)
    (htasks : w'.tasks = w.tasks) :
    (runFrom (p.checked d text) w').1
      = if p.approves w d text then .ok (d, p.finished w d text)
        else .error (.invalid d.kind d.input) := by
  obtain ⟨w₁, hfiles₁, htasks₁, hvalidate⟩ := p.runFrom_validate d text w'
  have happroves : p.approves w' d text = p.approves w d text := by
    rw [approves, approves, hfiles, htasks]
  rw [checked, runFrom_bind, hvalidate, happroves]
  cases p.approves w d text with
  | false => rfl
  | true =>
    have hminify := p.runFrom_minify d text w₁
    rw [hfiles₁, htasks₁, hfiles, htasks] at hminify
    simp only [if_true]
    rw [runFrom_bind]
    rcases hrun : runFrom (p.minify d text) w₁ with ⟨_ | minified, w₂⟩ <;> rw [hrun] at hminify
    · cases hminify
    · cases hminify
      rfl

/-- Producing a text is rendering what the descriptor stands for, and the tools. -/
theorem runFrom_produce (p : Plan) (w : Workspace) (d : Descriptor) :
    ∃ w', w.Quiet w' ∧ runFrom (p.produce p.index d) w = match p.expansion w d with
      | .error fault => (.error (.template fault), w')
      | .ok e => runFrom (p.render e.animations e.descriptor >>= p.checked e.descriptor) w' := by
  obtain ⟨w', htold, htarget⟩ := runFrom_target (p := p) d
    (runFrom (debugLog (quoted d.input ++ " (" ++ d.kind.name ++ "): pending")) w).2
  refine ⟨w', ⟨htold.files, htold.templates, htold.desk, htold.tasks⟩, ?_⟩
  rw [produce, runFrom_bind_ok (runFrom_debugLog _ w), runFrom_bind]
  rw [runFrom_debugLog] at htarget
  have hsame : ∀ journal, p.expansion { w with journal } d = p.expansion w d := fun _ => rfl
  rw [htarget, hsame]
  cases p.expansion w d with
  | error fault => rfl
  | ok e => rfl

/-- What a descriptor comes to, as the steps of a build find it. -/
theorem produces_produce (p : Plan) (w : Workspace) (d : Descriptor) :
    p.Produces w d (runFrom (p.produce p.index d) w).1 := by
  obtain ⟨w', hquiet, hrun⟩ := p.runFrom_produce w d
  rw [hrun]
  cases hexpansion : p.expansion w d with
  | error fault => exact .unexpanded hexpansion
  | ok e =>
    dsimp only
    have hbase := (expansion_ok hexpansion).2
    have hanswer := renders_render (p := p) (w := w) hbase
    rw [← answer_render hquiet] at hanswer
    have hstill : w'.Still (runFrom (p.render e.animations e.descriptor) w').2 :=
      renderWithin_moves p.telling_still importDepth _ _ _ w'
    rw [runFrom_bind]
    rcases hrender : runFrom (p.render e.animations e.descriptor) w' with ⟨cause | text, w₁⟩ <;>
      rw [hrender] at hanswer hstill
    · exact .unrendered hexpansion hanswer
    · dsimp only
      rw [p.answer_checked e.descriptor text (hstill.same.files.trans hquiet.files)
        (hstill.tasks.trans hquiet.tasks)]
      cases happroves : p.approves w e.descriptor text with
      | false => exact .refused hexpansion hanswer happroves
      | true => exact .finished hexpansion hanswer happroves

theorem produce_out {target : Descriptor} {text : String}
    (h : runFrom (p.produce p.index d) w = (.ok (target, text), w')) : target.out = d.out := by
  have hproduces := p.produces_produce w d
  rw [h] at hproduces
  cases hproduces with
  | finished hexpansion => exact (expansion_ok hexpansion).1

/-- **What a descriptor comes to.** -/
theorem produce_iff {outcome : Except Failure (Descriptor × String)} :
    (runFrom (p.produce p.index d) w).1 = outcome ↔ p.Produces w d outcome :=
  ⟨fun h => h ▸ p.produces_produce w d, (p.produces_produce w d).unique⟩

end Plan
end Build
end Frontispiece
