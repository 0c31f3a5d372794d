import Frontispiece.Proofs.Build.Produce
import Frontispiece.Proofs.Files.Growth
import Frontispiece.Proofs.Template.Apart

/-!
# The course of a build

A build comes to its descriptors one after the other.  Between its start and any position in it,
workspaces move along every relation that its single steps move along.  Two such relations are of
use: files only become more, and what the compiler keeps on its desk never changes a statistic.

## What is here

* `Plan.upTo` — a build up to a position; `Plan.steps_eq` says that a build is this and then the
  publication.
* `Plan.Carrying` — what is to be known of the single steps.
* `Plan.upTo_moves` — then a build up to a position moves along the relation, by induction on the
  position.
* `Plan.upTo_grows`, `Plan.upTo_recalls` — the files and the desk at a position.

A build is a loop over positions which reads the descriptor at its position from the workspace each
time, as an earlier position may have changed it.  Here that loop is written as a sequence of steps
that can be cut anywhere (`upTo`), so that later theorems can speak of the workspace in which the
build comes to a position, and not only of the last one.
-/

set_option autoImplicit false

namespace Frontispiece
namespace Build

open Files (FileTree)
open Project (Descriptor OutputIndex Registry)

/-! ## A build up to a position

The loop of a build is cut at a position: what it does up to there, and what is left.  A failure
happens at the first position that it can happen at, so both halves have to be computations. -/

/-- Writes a file into a folder that is there. -/
def putFile (path text : String) : Building Unit := do
  let w ← get
  match w.files.write path text.toUTF8 with
  | .ok files => set { w with files }
  | .error cause => throw (.write path cause)

namespace Plan

variable (p : Plan)

/-- Builds the descriptor at a position. -/
def processAt (index : OutputIndex) (position : Nat) : Building Unit := do
  match (← get).templates[position]? with
  | none => pure ()
  | some d => do
    match ← p.process index d with
    | none => pure ()
    | some text => modify fun w => { w with templates := w.templates.setRendered position text }

/-- Descriptors are processed one after the other. -/
theorem processAll_cons (index : OutputIndex) (position : Nat) (rest : List Nat) :
    p.processAll index (position :: rest)
      = p.processAt index position >>= fun _ => p.processAll index rest := by
  rw [processAll, processAt, bind_assoc]
  refine bind_congr fun w => ?_
  cases w.templates[position]? with
  | none => rfl
  | some d =>
    dsimp only
    rw [bind_assoc]
    refine bind_congr fun kept => ?_
    cases kept with
    | none => rfl
    | some text => rfl

theorem processAll_append (index : OutputIndex) : ∀ first second : List Nat,
    p.processAll index (first ++ second)
      = p.processAll index first >>= fun _ => p.processAll index second
  | [], _ => by rw [List.nil_append, processAll, pure_bind]
  | position :: rest, second => by
    rw [List.cons_append, processAll_cons, processAll_cons, bind_assoc]
    exact bind_congr fun _ => processAll_append index rest second

/-- What a build does before the first descriptor. -/
def prepare : Building Unit := do
  createFolders (p.layout.outFolder p.folder)
  if p.templates.isEmpty then (log .warn "no templates to build" : Working Unit)

/-- A build up to a position. -/
def upTo (k : Nat) : Building Unit := do
  p.prepare
  p.processAll p.index (List.range k)

theorem upTo_succ (k : Nat) :
    p.upTo (k + 1) = p.upTo k >>= fun _ => p.processAt p.index k := by
  rw [upTo, upTo, bind_assoc, List.range_succ]
  refine bind_congr fun _ => ?_
  rw [processAll_append, processAll_cons]
  refine bind_congr fun _ => ?_
  rw [processAll]
  simp

/-- The path of the file of a name. -/
def artifactPath (name : String) : String :=
  Files.join (p.layout.outFolder p.folder) name

/-- What a build does after the last descriptor. -/
def finish : Building Registry := do
  if !p.debug && !p.skipPages then p.publishAll
  return (← get).templates

/-- A build is its descriptors, and then the publication. -/
theorem steps_eq : p.steps = p.upTo p.templates.length >>= fun _ => p.finish := by
  rw [steps, upTo, prepare, index, bind_assoc, bind_assoc]
  refine bind_congr fun _ => ?_
  by_cases hempty : p.templates.isEmpty = true
  · simp only [hempty, if_true]
    rfl
  · simp only [hempty, Bool.false_eq_true, if_false, pure_bind]
    rfl

end Plan

/-! ## Relations that carry through

Many invariants of the loop are relations of the workspace before to the one after, which every step
keeps.  It is enough to show this for the few kinds of steps. -/

/-- A workspace with at least the folders and files of another. -/
def Workspace.Grows (w w' : Workspace) : Prop :=
  w.files.Grows w'.files

/-- A relation that every step of a build moves along. -/
structure Plan.Carrying (p : Plan) (R : Workspace → Workspace → Prop) : Prop extends
    p.Asking R where
  folders : ∀ path, Moves R (createFolders path)
  file : ∀ path text, Moves R (putFile path text)
  result : ∀ position text,
    Moves R (modify fun w => { w with templates := w.templates.setRendered position text } :
      Building Unit)

namespace Plan

variable {p : Plan} {R : Workspace → Workspace → Prop}

theorem writeFile_moves (h : p.Carrying R) (path text : String) :
    Moves R (writeFile path text) := by
  rw [writeFile]
  dsimp only
  split
  · exact h.bind (h.folders _) fun _ => h.file path text
  · exact h.file path text

theorem deliver_moves (h : p.Carrying R) (d : Descriptor) (text : String) :
    Moves R (p.deliver d text) := by
  rw [deliver]
  split
  · exact h.bind (writeFile_moves h _ _) fun _ => h.bind (h.tell _) fun _ =>
      h.bind (h.debugLog _) fun _ => h.pure none
  · exact h.bind (h.debugLog _) fun _ => h.pure (some text)

/-- To process a descriptor moves the workspace along every relation that its parts carry. -/
theorem processAt_moves (h : p.Carrying R) (index : OutputIndex) (position : Nat) :
    Moves R (p.processAt index position) := by
  rw [processAt]
  refine h.bind h.get fun w => ?_
  split
  · exact h.pure ()
  · rw [process_eq]
    refine h.bind (h.bind (produce_moves h.toAsking index _) fun _ =>
      deliver_moves h _ _) fun kept => ?_
    split
    · exact h.pure ()
    · exact h.result position _

theorem prepare_moves (h : p.Carrying R) : Moves R p.prepare := by
  rw [prepare]
  refine h.bind (h.folders _) fun _ => ?_
  split
  · exact fun w => h.journal w _ rfl
  · exact h.pure ()

/-- **What the single steps of a build move along, it moves along as a whole.** -/
theorem upTo_moves (h : p.Carrying R) : ∀ k : Nat, Moves R (p.upTo k)
  | 0 => by
    rw [upTo]
    exact h.bind (prepare_moves h) fun _ => h.pure ()
  | k + 1 => by
    rw [upTo_succ]
    exact h.bind (upTo_moves h k) fun _ => processAt_moves h p.index k

/-! ## Files

The loop writes files and makes folders, and does nothing else to the file tree: what was there is
still there, folders as folders and files as files. -/

/-- To make folders lets the files grow. -/
theorem createFolders_grows (path : String) :
    Moves Workspace.Grows (createFolders path) := by
  intro w
  have hgrows := FileTree.grows_createFolders w.files path
  rw [createFolders, runFrom_bind_ok (runFrom_get w)]
  generalize w.files.createFolders path = made at hgrows
  obtain ⟨result, files⟩ := made
  cases result with
  | error cause => exact hgrows
  | ok done => exact hgrows

theorem putFile_grows (path text : String) :
    Moves Workspace.Grows (putFile path text) := by
  intro w
  rw [putFile, runFrom_bind_ok (runFrom_get w)]
  cases hwrite : w.files.write path text.toUTF8 with
  | error cause => exact .refl w.files
  | ok files => exact FileTree.grows_of_write hwrite

/-- **No step of a build takes a file or a folder away.** -/
theorem carrying_grows (p : Plan) : p.Carrying Workspace.Grows where
  refl w := .refl w.files
  trans := FileTree.Grows.trans
  journal w _ _ := .refl w.files
  compile source data w := by
    show w.files.Grows (runFrom (p.compile source data) w).2.files
    rw [runFrom_compile]
    exact .refl w.files
  tasks w _ := .refl w.files
  folders := createFolders_grows
  file := putFile_grows
  result _ _ w := .refl w.files

/-- The files at a position are the first ones and more. -/
theorem upTo_grows {files : FileTree} {k : Nat} {w : Workspace}
    (h : runFrom (p.upTo k) (p.start files) = (.ok (), w)) : files.Grows w.files := by
  have hmoved := upTo_moves p.carrying_grows k (p.start files)
  rw [h] at hmoved
  exact hmoved

/-! ## The desk

What compiling leaves on the desk are statistics.  They are kept, and a statistic that was asked for
is not asked for again. -/

/-- What the compiler keeps leads to the statistics that it led to. -/
def Recalls (p : Plan) (w w' : Workspace) : Prop :=
  p.compiler.provider.Keeps w.desk.memo w'.desk.memo

theorem compile_recalls (p : Plan) (source : String) (data : Json) :
    Moves p.Recalls (p.compile source data) := by
  intro w
  rw [runFrom_compile]
  exact Template.compile_keeps p.compiler w.files source data w.desk

/-- **No step of a build changes a statistic.** -/
theorem carrying_recalls (p : Plan) : p.Carrying p.Recalls where
  refl _ := .refl _ _
  trans := .trans
  journal _ _ _ := .refl _ _
  compile := p.compile_recalls
  tasks _ _ := .refl _ _
  folders path w := by
    rw [createFolders, runFrom_bind_ok (runFrom_get w)]
    generalize w.files.createFolders path = made
    obtain ⟨result, files⟩ := made
    cases result <;> exact .refl _ _
  file path text w := by
    rw [putFile, runFrom_bind_ok (runFrom_get w)]
    cases w.files.write path text.toUTF8 <;> exact .refl _ _
  result _ _ _ := .refl _ _

/-- At every position statistics are what they would be at first. -/
theorem upTo_recalls {files : FileTree} {k : Nat} {w : Workspace}
    (h : runFrom (p.upTo k) (p.start files) = (.ok (), w)) :
    p.compiler.provider.Keeps .empty w.desk.memo := by
  have hmoved := upTo_moves p.carrying_recalls k (p.start files)
  rw [h] at hmoved
  exact hmoved

end Plan
end Build
end Frontispiece
