import Frontispiece.Proofs.Build.Course

/-!
# One descriptor after the other

A build goes through its descriptors in order.  What a descriptor comes to is found before anything
is written for it, so that a failure there leaves exactly the files of the descriptors before.

## What is here

* `Plan.produced`, `Plan.artifacts` — what a build makes of a descriptor, and the files that it has
  written by a position.
* `Plan.Built` — what holds when a build has come to a position, by induction on the position.
* `Plan.run_sequential` — what a build answers, and what it leaves when it fails.

What a build has done by a position is said in terms of its files and descriptors at the start: the
texts are `produced`, the files are `artifacts`, and the descriptors are `filled`.  The texts are
found by running the build up to the position, and each of them is what its descriptor comes to
there, in the sense of `Produces`.  That the three fit together, and that a failure leaves what was
made before it and no more, is the theorem.
-/

set_option autoImplicit false

namespace Frontispiece
namespace Build

open Files (FileTree)
open Project (Descriptor Registry)

/-! ## Files

Only writing a file changes what files hold.  The folders that are made for it hold nothing, and a
device swallows what it gets. -/

/-- Making folders changes the contents of no file, whether it succeeds or not. -/
theorem createFolders_run {path : String} {w w' : Workspace} {result : Except Failure Unit}
    (h : runFrom (createFolders path) w = (result, w')) :
    w'.files.content? = w.files.content? ∧ w'.templates = w.templates ∧
      w'.journal.published = w.journal.published := by
  have hcontents := FileTree.content?_createFolders w.files path
  rw [createFolders, runFrom_bind_ok (runFrom_get w)] at h
  generalize w.files.createFolders path = made at h hcontents
  obtain ⟨answer, files⟩ := made
  cases answer with
  | ok done =>
    cases h
    exact ⟨funext hcontents, rfl, rfl⟩
  | error cause =>
    cases h
    exact ⟨funext hcontents, rfl, rfl⟩

theorem putFile_ok {path text : String} {w w' : Workspace}
    (h : runFrom (putFile path text) w = (.ok (), w')) :
    w'.files.content? = FileTree.overwrite w.files.content? (w.files.written path text.toUTF8) ∧
      w'.templates = w.templates ∧ w'.journal.published = w.journal.published := by
  rw [putFile, runFrom_bind_ok (runFrom_get w)] at h
  split at h
  · next files hfiles =>
    cases h
    exact ⟨FileTree.contents_of_write hfiles, rfl, rfl⟩
  · cases h

/-- A file that was written holds its text, and the other files hold what they held. -/
theorem writeFile_ok {path text : String} {w w' : Workspace}
    (h : runFrom (writeFile path text) w = (.ok (), w')) :
    w'.files.content? = FileTree.overwrite w.files.content? (w.files.written path text.toUTF8) ∧
      w'.templates = w.templates ∧ w'.journal.published = w.journal.published := by
  rw [writeFile] at h
  dsimp only at h
  split at h
  · next parent _ =>
    obtain ⟨_, w₁, hfolders, h⟩ := ok_of_runFrom_bind h
    obtain ⟨hcontents, htemplates, hpublished⟩ := createFolders_run hfolders
    have hgrows := Plan.createFolders_grows parent w
    rw [hfolders] at hgrows
    rw [← hcontents, ← htemplates, ← hpublished, ← FileTree.Grows.written_eq hgrows]
    exact putFile_ok h
  · exact putFile_ok h

namespace Plan

variable (p : Plan)

/-- **A delivered text is in the file of its descriptor**, or it is kept when there is none. -/
theorem deliver_ok {d : Descriptor} {text : String} {w w' : Workspace} {kept : Option String}
    (h : runFrom (p.deliver d text) w = (.ok kept, w')) :
    w'.templates = w.templates ∧ w'.journal.published = w.journal.published ∧
      match d.out with
      | none => kept = some text ∧ w'.files.content? = w.files.content?
      | some name => kept = none ∧ w'.files.content? = FileTree.overwrite w.files.content?
          (w.files.written (p.artifactPath name) text.toUTF8) := by
  rw [deliver] at h
  split at h
  · next name hname =>
    rw [hname]
    obtain ⟨_, w₁, hwrite, h⟩ := ok_of_runFrom_bind h
    obtain ⟨_, w₂, htell, h⟩ := ok_of_runFrom_bind h
    obtain ⟨_, w₃, hlog, h⟩ := ok_of_runFrom_bind h
    cases h
    have hsame := p.telling_same.tell [⟨false, d.kind.name ++ " file generated: "
      ++ quoted (Files.join (p.layout.outFolder p.folder) name)⟩] w₁
    rw [htell] at hsame
    have hlogged := p.telling_same.debugLog (quoted d.input ++ ": written") w₂
    rw [hlog] at hlogged
    have hboth := hsame.trans hlogged
    obtain ⟨hcontents, htemplates, hpublished⟩ := writeFile_ok hwrite
    refine ⟨hboth.templates.trans htemplates, hboth.published.trans hpublished, rfl, ?_⟩
    rw [hboth.files, hcontents]
    rfl
  · next hname =>
    rw [hname]
    obtain ⟨_, w₁, hlog, h⟩ := ok_of_runFrom_bind h
    cases h
    have hlogged := p.telling_same.debugLog (quoted d.input ++ ": collected") w
    rw [hlog] at hlogged
    exact ⟨hlogged.templates, hlogged.published, rfl, congrArg _ hlogged.files⟩

/-! ## What a build has made by a position

Which text each descriptor came to, which of them are filled in, and which files they are.  All
three are told by the descriptors before the position, from the first one on. -/

/-- What a build makes of the descriptor at a position when it comes to it. -/
def produced (files : FileTree) (k : Nat) : Option String :=
  match runFrom (p.upTo k) (p.start files), p.templates[k]? with
  | (.ok (), w), some d =>
    match runFrom (p.produce p.index d) w with
    | (.ok (_, text), _) => some text
    | (.error _, _) => none
  | _, _ => none

/-- The descriptors of a build up to a position: those without a file have their result. -/
def filled (files : FileTree) (k : Nat) : Registry :=
  p.templates.mapIdx fun i d =>
    if i < k ∧ d.out.isNone then { d with rendered := p.produced files i } else d

/-- The file of the descriptor at a position, with what a build writes to it.  There is none when it
has no output, or one that leads to a device. -/
def artifact (files : FileTree) (i : Nat) : List (List String × ByteArray) :=
  match p.templates[i]?.bind (·.out), p.produced files i with
  | some name, some text => files.written (p.artifactPath name) text.toUTF8
  | _, _ => []

/-- The files that a build up to a position has written, in order. -/
def artifacts (files : FileTree) (k : Nat) : List (List String × ByteArray) :=
  (List.range k).flatMap (p.artifact files)

variable {p} {files : FileTree} {k : Nat} {w w' : Workspace} {d : Descriptor}

theorem produced_eq {target : Descriptor} {text : String}
    (hupTo : runFrom (p.upTo k) (p.start files) = (.ok (), w)) (hd : p.templates[k]? = some d)
    (hproduce : runFrom (p.produce p.index d) w = (.ok (target, text), w')) :
    p.produced files k = some text := by
  simp only [produced, hupTo, hd, hproduce]

/-- The descriptor that is next is as it was. -/
theorem getElem?_filled : (p.filled files k)[k]? = p.templates[k]? := by
  simp [filled, List.getElem?_mapIdx]

/-- A descriptor with a file does not change. -/
theorem filled_succ_of_out (h : ∀ d, p.templates[k]? = some d → d.out ≠ none) :
    p.filled files (k + 1) = p.filled files k := by
  refine List.ext_getElem? fun i => ?_
  simp only [filled, List.getElem?_mapIdx]
  cases hi : p.templates[i]? with
  | none => rfl
  | some d =>
    by_cases hk : i = k
    · subst hk
      simp [h d hi]
    · have hlt : i < k + 1 ↔ i < k := by omega
      simp [hlt]

/-- A descriptor without a file has its result filled in. -/
theorem filled_succ_of_none {text : String} (hd : p.templates[k]? = some d) (hout : d.out = none)
    (htext : p.produced files k = some text) :
    p.filled files (k + 1) = (p.filled files k).setRendered k text := by
  refine List.ext_getElem? fun i => ?_
  simp only [filled, Project.Registry.setRendered, List.getElem?_mapIdx, List.getElem?_modify]
  by_cases hk : i = k
  · subst hk
    simp [hd, hout, htext]
  · have hlt : i < k + 1 ↔ i < k := by omega
    simp [hlt, Ne.symm hk]

theorem artifacts_succ :
    p.artifacts files (k + 1) = p.artifacts files k ++ p.artifact files k := by
  rw [artifacts, artifacts, List.range_succ, List.flatMap_append, List.flatMap_singleton]

/-- What holds when a build has come to a position. -/
structure Built (p : Plan) (files : FileTree) (k : Nat) (w : Workspace) : Prop where
  produced : ∀ i < k, i < p.templates.length → (p.produced files i).isSome
  templates : w.templates = p.filled files k
  contents : w.files.content? = FileTree.overwrite files.content? (p.artifacts files k)
  published : w.journal.published = []

/-- The descriptor at a position takes a build to the next one. -/
theorem Built.processAt (h : p.Built files k w)
    (hupTo : runFrom (p.upTo k) (p.start files) = (.ok (), w))
    (hstep : runFrom (p.processAt p.index k) w = (.ok (), w')) : p.Built files (k + 1) w' := by
  rw [Plan.processAt, runFrom_bind_ok (runFrom_get w), h.templates, getElem?_filled] at hstep
  cases hd : p.templates[k]? with
  | none =>
    rw [hd] at hstep
    cases hstep
    -- beyond the last descriptor there is nothing to do
    have hlength := List.getElem?_eq_none_iff.mp hd
    refine ⟨fun i hi hlt => h.produced i (by omega) hlt, ?_, ?_, h.published⟩
    · rw [h.templates, filled_succ_of_out (by simp [hd])]
    · have hnone : p.artifact files k = [] := by simp [artifact, hd]
      rw [h.contents, artifacts_succ, hnone, List.append_nil]
  | some d =>
    rw [hd] at hstep
    obtain ⟨kept, w₁, hprocess, hstep⟩ := ok_of_runFrom_bind hstep
    rw [process_eq] at hprocess
    obtain ⟨⟨target, text⟩, w₂, hproduce, hdeliver⟩ := ok_of_runFrom_bind hprocess
    -- up to delivery nothing has changed, and delivery goes by the output of `d` itself
    have hsame := p.produce_keeps p.index d w
    rw [hproduce] at hsame
    have htext := produced_eq hupTo hd hproduce
    have hproduced : ∀ i < k + 1, i < p.templates.length → (p.produced files i).isSome := by
      intro i hi hlt
      by_cases hk : i = k
      · simp [hk, htext]
      · exact h.produced i (by omega) hlt
    obtain ⟨htemplates, hpublished, hfiles⟩ := p.deliver_ok hdeliver
    have hbefore : w₁.templates = p.filled files k :=
      htemplates.trans (hsame.templates.trans h.templates)
    have hnever : w₁.journal.published = [] :=
      hpublished.trans (hsame.published.trans h.published)
    rw [p.produce_out hproduce, hsame.files] at hfiles
    cases hout : d.out with
    | none =>
      obtain ⟨rfl, hcontents⟩ := hout ▸ hfiles
      cases hstep
      refine ⟨hproduced, ?_, ?_, hnever⟩
      -- collected: the text stays with the descriptor, and no file is written
      · rw [filled_succ_of_none hd hout htext]
        exact congrArg (Project.Registry.setRendered · k text) hbefore
      · have hnone : p.artifact files k = [] := by simp [artifact, hd, hout]
        rw [artifacts_succ, hnone, List.append_nil]
        exact hcontents.trans h.contents
    | some name =>
      obtain ⟨rfl, hcontents⟩ := hout ▸ hfiles
      cases hstep
      refine ⟨hproduced, ?_, ?_, hnever⟩
      · rw [hbefore, filled_succ_of_out (by simp [hd, hout])]
      -- written: the file goes over those that are there
      · have hfile : p.artifact files k = files.written (p.artifactPath name) text.toUTF8 := by
          simp [artifact, hd, hout, htext]
        rw [hcontents, h.contents, artifacts_succ, hfile, FileTree.overwrite_append,
          (upTo_grows hupTo).written_eq]

/-- Nothing is built at first. -/
theorem built_of_prepare (h : runFrom p.prepare (p.start files) = (.ok (), w)) :
    p.Built files 0 w := by
  rw [prepare] at h
  obtain ⟨_, w₁, hfolders, h⟩ := ok_of_runFrom_bind h
  obtain ⟨hcontents, htemplates, hpublished⟩ := createFolders_run hfolders
  have hnothing : p.filled files 0 = p.templates := by
    refine List.ext_getElem? fun i => ?_
    simp [filled, List.getElem?_mapIdx]
  have hsame : w₁.Same w := by
    split at h
    · cases h
      exact ⟨rfl, rfl, rfl⟩
    · cases h
      exact .refl _
  refine ⟨fun i hi => by omega, ?_, ?_, hsame.published.trans hpublished⟩
  · rw [hsame.templates, htemplates, hnothing]
    rfl
  · rw [hsame.files]
    exact hcontents

/-- **What a build has done by a position**, by induction on the position. -/
theorem upTo_built : ∀ {k : Nat} {w : Workspace},
    runFrom (p.upTo k) (p.start files) = (.ok (), w) → p.Built files k w
  | 0, w, h => by
    rw [upTo] at h
    obtain ⟨_, _, hprepare, h⟩ := ok_of_runFrom_bind h
    cases h
    exact built_of_prepare hprepare
  | k + 1, w, h => by
    rw [upTo_succ] at h
    obtain ⟨_, w₁, hupTo, hstep⟩ := ok_of_runFrom_bind h
    exact (upTo_built hupTo).processAt hupTo hstep

/-! ## A whole build

A build that ends well has made all of it.  A build that fails does so while preparing, at a first
position, or while publishing, and in each case it is known what has been made by then. -/

/-- Publishing does not touch the descriptors. -/
theorem finish_ok {r : Registry} (h : runFrom p.finish w = (.ok r, w')) : r = w.templates := by
  have hpublish : ∀ {w' : Workspace}, runFrom p.publishAll w = (.ok (), w') →
      w'.templates = w.templates := by
    intro w' h
    rw [publishAll] at h
    obtain ⟨_, w₁, hpublished, h⟩ := ok_of_runFrom_bind h
    cases hpublished
    obtain ⟨_, _, hget, h⟩ := ok_of_runFrom_bind h
    cases hget
    obtain ⟨_, w₂, hset, h⟩ := ok_of_runFrom_bind h
    cases hset
    split at h
    · cases h
      rfl
    · cases h
  rw [finish] at h
  split at h
  · obtain ⟨_, w₁, hdone, h⟩ := ok_of_runFrom_bind h
    cases h
    exact hpublish hdone
  · cases h
    rfl

/-- A build that has failed goes no further. -/
theorem upTo_error_of_le {e : Failure} {n : Nat}
    (h : runFrom (p.upTo k) (p.start files) = (.error e, w)) (hle : k ≤ n) :
    runFrom (p.upTo n) (p.start files) = (.error e, w) := by
  induction hle with
  | refl => exact h
  | step _ ih =>
    rw [upTo_succ]
    exact runFrom_bind_error ih _

/-- The build fails with the descriptor that fails. -/
theorem run_of_process_error {e : Failure}
    (hupTo : runFrom (p.upTo k) (p.start files) = (.ok (), w)) (hd : p.templates[k]? = some d)
    (hprocess : runFrom (p.process p.index d) w = (.error e, w')) :
    p.run files = (.error e, w') := by
  have hat : runFrom (p.processAt p.index k) w = (.error e, w') := by
    rw [Plan.processAt, runFrom_bind_ok (runFrom_get w), (upTo_built hupTo).templates, getElem?_filled, hd]
    exact runFrom_bind_error hprocess _
  have hnext : runFrom (p.upTo (k + 1)) (p.start files) = (.error e, w') := by
    rw [upTo_succ, runFrom_bind_ok hupTo]
    exact hat
  have hlength : k < p.templates.length := (List.getElem?_eq_some_iff.mp hd).1
  show runFrom p.steps (p.start files) = (.error e, w')
  rw [steps_eq]
  exact runFrom_bind_error (upTo_error_of_le hnext hlength) _

/-- A build that fails before it comes to a position has failed in making the folder of artifacts
or with a descriptor before that position. -/
theorem upTo_error_cases {e : Failure} :
    runFrom (p.upTo k) (p.start files) = (.error e, w') →
    runFrom p.prepare (p.start files) = (.error e, w') ∨
      ∃ i d w, i < k ∧ runFrom (p.upTo i) (p.start files) = (.ok (), w) ∧ p.templates[i]? = some d ∧
        runFrom (p.process p.index d) w = (.error e, w') := by
  induction k with
  | zero =>
    intro h
    rw [upTo] at h
    obtain h | ⟨_, w₁, -, h⟩ := error_of_runFrom_bind h
    · exact .inl h
    · cases h
  | succ k ih =>
    intro h
    rw [upTo_succ] at h
    obtain h | ⟨_, w, hupTo, hstep⟩ := error_of_runFrom_bind h
    · obtain h | ⟨i, d, w, hi, h⟩ := ih h
      · exact .inl h
      · exact .inr ⟨i, d, w, by omega, h⟩
    · refine .inr ⟨k, ?_⟩
      rw [Plan.processAt, runFrom_bind_ok (runFrom_get w), (upTo_built hupTo).templates,
        getElem?_filled] at hstep
      cases hd : p.templates[k]? with
      | none =>
        rw [hd] at hstep
        cases hstep
      | some d =>
        rw [hd] at hstep
        refine ⟨d, w, by omega, hupTo, rfl, ?_⟩
        obtain hprocess | ⟨kept, w₁, -, hstep⟩ := error_of_runFrom_bind hstep
        · exact hprocess
        · cases kept with
          | none => cases hstep
          | some text => cases hstep

/-- After the last descriptor only publishing can fail. -/
theorem finish_error {e : Failure} (h : runFrom p.finish w = (.error e, w')) :
    runFrom p.publishAll w = (.error e, w') := by
  rw [finish] at h
  split at h
  · obtain h | ⟨_, w₁, -, h⟩ := error_of_runFrom_bind h
    · exact h
    · cases h
  · cases h

/-- What a build has made before a position is what the descriptors come to when it comes to
them. -/
def Makes (p : Plan) (files : FileTree) (k : Nat) : Prop :=
  ∀ i d, i < k → p.templates[i]? = some d → ∃ w target text,
    runFrom (p.upTo i) (p.start files) = (.ok (), w) ∧ p.Produces w d (.ok (target, text)) ∧
      p.produced files i = some text

theorem Built.makes (h : p.Built files k w) : p.Makes files k := by
  intro i d hi hd
  obtain ⟨text, htext⟩ := Option.isSome_iff_exists.mp
    (h.produced i hi (List.getElem?_eq_some_iff.mp hd).1)
  have hmade := htext
  rw [Plan.produced, hd] at hmade
  rcases hupTo : runFrom (p.upTo i) (p.start files) with ⟨_ | _, w₁⟩ <;> rw [hupTo] at hmade
  · cases hmade
  rcases hproduce : runFrom (p.produce p.index d) w₁ with ⟨_ | ⟨target, _⟩, w₂⟩ <;>
    simp only [hproduce] at hmade
  · cases hmade
  · cases hmade
    exact ⟨w₁, target, text, rfl, produce_iff.1 (congrArg Prod.fst hproduce), htext⟩

/-- A build that succeeds keeps the descriptors and their order, and fills in the results of those
without a file. -/
theorem run_ok {r : Registry} (h : p.run files = (.ok r, w)) :
    p.Makes files p.templates.length ∧
      r = p.templates.mapIdx fun i d =>
        if d.out.isNone then { d with rendered := p.produced files i } else d := by
  have hsteps : runFrom p.steps (p.start files) = (.ok r, w) := h
  rw [steps_eq] at hsteps
  obtain ⟨_, w₁, hupTo, hfinish⟩ := ok_of_runFrom_bind hsteps
  have hbuilt := upTo_built hupTo
  refine ⟨hbuilt.makes, ?_⟩
  rw [finish_ok hfinish, hbuilt.templates]
  refine List.ext_getElem? fun i => ?_
  simp only [filled, List.getElem?_mapIdx]
  cases hi : p.templates[i]? with
  | none => rfl
  | some d => simp [(List.getElem?_eq_some_iff.mp hi).1]

/-- A build whose next descriptor comes to a failure has written the texts before it, and no
more. -/
theorem run_of_produces_error {e : Failure}
    (hupTo : runFrom (p.upTo k) (p.start files) = (.ok (), w)) (hd : p.templates[k]? = some d)
    (hproduces : p.Produces w d (.error e)) :
    ∃ w', p.run files = (.error e, w') ∧ p.Makes files k ∧
      w'.files.content? = FileTree.overwrite files.content? (p.artifacts files k) ∧
      w'.files = w.files ∧ w'.journal.published = [] := by
  have hbuilt := upTo_built hupTo
  have hanswer := produce_iff.2 hproduces
  have hsame := p.produce_keeps p.index d w
  rcases hproduce : runFrom (p.produce p.index d) w with ⟨result, w'⟩
  rw [hproduce] at hanswer hsame
  obtain rfl : result = .error e := hanswer
  have hprocess : runFrom (p.process p.index d) w = (.error e, w') := by
    rw [process_eq]
    exact runFrom_bind_error hproduce _
  exact ⟨w', run_of_process_error hupTo hd hprocess, hbuilt.makes,
    (congrArg FileTree.content? hsame.files).trans hbuilt.contents, hsame.files,
    hsame.published.trans hbuilt.published⟩

/-- Making folders fails with a fault of the files. -/
theorem createFolders_error {path : String} {e : Failure}
    (h : runFrom (createFolders path) w = (.error e, w')) : ∃ cause, e = .createFolder path cause := by
  rw [createFolders, runFrom_bind_ok (runFrom_get w)] at h
  generalize w.files.createFolders path = made at h
  obtain ⟨answer, files⟩ := made
  cases answer with
  | ok done => cases h
  | error cause =>
    cases h
    exact ⟨cause, rfl⟩

/-- What is left of a build when a descriptor has its text fails in its files only. -/
theorem deliver_error {text : String} {e : Failure}
    (h : runFrom (p.deliver d text) w = (.error e, w')) :
    ∃ path cause, e = .createFolder path cause ∨ e = .write path cause := by
  have hput : ∀ {path w}, runFrom (putFile path text) w = (.error e, w') →
      ∃ path cause, e = .createFolder path cause ∨ e = .write path cause := by
    intro path w h
    rw [putFile, runFrom_bind_ok (runFrom_get w)] at h
    split at h
    · cases h
    · next cause _ =>
      cases h
      exact ⟨path, cause, .inr rfl⟩
  rw [deliver] at h
  split at h
  · obtain h | ⟨_, w₁, -, h⟩ := error_of_runFrom_bind h
    · rw [writeFile] at h
      dsimp only at h
      split at h
      · next parent _ =>
        obtain h | ⟨_, w₁, -, h⟩ := error_of_runFrom_bind h
        · obtain ⟨cause, hcause⟩ := createFolders_error h
          exact ⟨parent, cause, .inl hcause⟩
        · exact hput h
      · exact hput h
    · obtain h | ⟨_, w₂, -, h⟩ := error_of_runFrom_bind h
      · cases h
      · obtain h | ⟨_, w₃, -, h⟩ := error_of_runFrom_bind h <;> cases h
  · obtain h | ⟨_, w₁, -, h⟩ := error_of_runFrom_bind h <;> cases h

/-- What a build does before the first descriptor fails in its folder only. -/
theorem prepare_error {e : Failure} (h : runFrom p.prepare w = (.error e, w')) :
    ∃ cause, e = .createFolder (p.layout.outFolder p.folder) cause := by
  rw [prepare] at h
  obtain h | ⟨_, w₁, -, h⟩ := error_of_runFrom_bind h
  · exact createFolders_error h
  · split at h <;> cases h

/-- Publishing fails with a fault of the publisher. -/
theorem publishAll_error {e : Failure} (h : runFrom p.publishAll w = (.error e, w')) :
    ∃ cause, e = .publish cause := by
  rw [publishAll, runFrom_bind_ok (runFrom_modify _ w), runFrom_bind_ok (runFrom_get _)] at h
  dsimp only at h
  obtain h | ⟨_, w₁, -, h⟩ := error_of_runFrom_bind h
  · cases h
  · split at h
    · cases h
    · next fault _ =>
      cases h
      exact ⟨fault, rfl⟩

/-- A build that fails has failed in making the folder of artifacts, with what a descriptor comes to
or in delivering its text, or in publishing. -/
theorem run_error_cases {e : Failure} (h : p.run files = (.error e, w')) :
    (∃ cause, e = .createFolder (p.layout.outFolder p.folder) cause) ∨
      (∃ k d w, runFrom (p.upTo k) (p.start files) = (.ok (), w) ∧ p.templates[k]? = some d ∧
        (p.Produces w d (.error e) ∨ ∃ target text, p.Produces w d (.ok (target, text)) ∧
          ∃ path cause, e = .createFolder path cause ∨ e = .write path cause)) ∨
      ∃ w cause, runFrom (p.upTo p.templates.length) (p.start files) = (.ok (), w) ∧
        e = .publish cause := by
  have hsteps : runFrom p.steps (p.start files) = (.error e, w') := h
  rw [steps_eq] at hsteps
  obtain hupTo | ⟨_, w, hupTo, hfinish⟩ := error_of_runFrom_bind hsteps
  · obtain hprepare | ⟨k, d, w, -, hupTo, hd, hprocess⟩ := upTo_error_cases hupTo
    · exact .inl (prepare_error hprepare)
    · rw [process_eq] at hprocess
      refine .inr (.inl ⟨k, d, w, hupTo, hd, ?_⟩)
      obtain hproduce | ⟨⟨target, text⟩, w₁, hproduce, hdeliver⟩ := error_of_runFrom_bind hprocess
      · exact .inl (produce_iff.1 (congrArg Prod.fst hproduce))
      · exact .inr ⟨target, text, produce_iff.1 (congrArg Prod.fst hproduce),
          deliver_error hdeliver⟩
  · obtain ⟨cause, hcause⟩ := publishAll_error (finish_error hfinish)
    exact .inr (.inr ⟨w, cause, hupTo, hcause⟩)

/-- **A build is sequential, keeps the order, and stops at the first failure.**

1. When it succeeds, every descriptor has the text that it comes to when the build comes to it, and
   the answer is the descriptors as they were, but for the results of those without a file.
2. When it comes to a descriptor that comes to a failure, because its expansion or its rendering
   fails or the tools refuse its text, it fails with that failure.  Then exactly the artifacts of
   the descriptors before are written, in order, and nothing was given to the publisher.
3. It fails in no other way than this, in making a folder or writing a file, or in publishing.

`Produces` says what a descriptor comes to.  The tools may answer as they like, after what they were
asked before and what they see in the files. -/
theorem run_sequential (p : Plan) (files : FileTree) :
    (∀ r w, p.run files = (.ok r, w) →
      p.Makes files p.templates.length ∧
        r = p.templates.mapIdx fun i d =>
          if d.out.isNone then { d with rendered := p.produced files i } else d) ∧
    (∀ k d w e, runFrom (p.upTo k) (p.start files) = (.ok (), w) → p.templates[k]? = some d →
      p.Produces w d (.error e) →
      ∃ w', p.run files = (.error e, w') ∧ p.Makes files k ∧
        w'.files.content? = FileTree.overwrite files.content? (p.artifacts files k) ∧
        w'.files = w.files ∧ w'.journal.published = []) ∧
    (∀ e w', p.run files = (.error e, w') →
      (∃ cause, e = .createFolder (p.layout.outFolder p.folder) cause) ∨
      (∃ k d w, runFrom (p.upTo k) (p.start files) = (.ok (), w) ∧ p.templates[k]? = some d ∧
        (p.Produces w d (.error e) ∨ ∃ target text, p.Produces w d (.ok (target, text)) ∧
          ∃ path cause, e = .createFolder path cause ∨ e = .write path cause)) ∨
      ∃ w cause, runFrom (p.upTo p.templates.length) (p.start files) = (.ok (), w) ∧
        e = .publish cause) :=
  ⟨fun _ _ h => run_ok h, fun _ _ _ _ hupTo hd hproduces => run_of_produces_error hupTo hd hproduces,
    fun _ _ h => run_error_cases h⟩

/-- Tools that find every text valid and end it with a line break. -/
def lineTools : Toolchain := ⟨fun _ _ => (true, []), fun _ _ text => (text ++ "\n", [])⟩

/-- The same tools, that find no text valid once they have been asked for something. -/
def onceTools : Workshop where
  toolsAfter tasks _ := { lineTools with validate := fun _ _ => (tasks.isEmpty, []) }

/-- Two notes, the first with a file. -/
def notes : Plan where
  templates := [⟨"a", some "b", .markdown, .null, true, none⟩,
    ⟨"c", none, .markdown, .null, true, none⟩]
  version := ""
  time := ⟨0, 0⟩
  folder := ""
  debug := false
  skipPages := false
  layout := ⟨"", "", "", "", ""⟩
  console := .silent
  tools := lineTools
  provider := ⟨.placeholder, none, false⟩
  publish := fun _ _ _ => pure ()
  nonce := fun _ => 0

/-- The templates of the notes. -/
def noteTemplates : FileTree where
  entries := [(["a"], .file "".toUTF8), (["c"], .file "".toUTF8)]

/-- The template of the first note alone. -/
def firstTemplate : FileTree where
  entries := [(["a"], .file "".toUTF8)]

theorem exists_ok {α : Type} {r : Except Failure α × Workspace} (h : r.1.toBool = true) :
    ∃ a w, r = (.ok a, w) := by
  obtain ⟨result, w⟩ := r
  cases result with
  | error e => cases h
  | ok a => exact ⟨a, w, rfl⟩

/-- The second note, as it is when a build comes to it. -/
def secondNote : Descriptor := ⟨"c", none, .markdown, .null, true, none⟩

/-- The same notes with the other tools. -/
def onceNotes : Plan := { notes with tools := onceTools }

set_option maxRecDepth 20000 in
/-- With both templates the second note has its result.  Without that of the second note, and with
tools that refuse its text, the build fails after the file of the first. -/
theorem notes_run_sequential :
    (∃ w, notes.run noteTemplates = (.ok [⟨"a", some "b", .markdown, .null, true, none⟩,
      { secondNote with rendered := some "\n" }], w)) ∧
    (∃ w', notes.run firstTemplate = (.error (.readTemplate "c" .notFound), w') ∧
      w'.files.content? = FileTree.overwrite firstTemplate.content? [(["b"], "\n".toUTF8)] ∧
      w'.journal.published = []) ∧
    ∃ w', onceNotes.run noteTemplates = (.error (.invalid .markdown "c"), w') ∧
      w'.files.content? = FileTree.overwrite noteTemplates.content? [(["b"], "\n".toUTF8)] ∧
      w'.journal.published = [] := by
  refine ⟨?_, ?_, ?_⟩
  · obtain ⟨r, w, hrun⟩ : ∃ r w, notes.run noteTemplates = (.ok r, w) := exists_ok (by decide +kernel)
    obtain ⟨-, hlist⟩ := (run_sequential notes noteTemplates).1 r w hrun
    have htext : notes.produced noteTemplates 1 = some "\n" := by decide +kernel
    have hsecond : r = [⟨"a", some "b", .markdown, .null, true, none⟩,
        { secondNote with rendered := notes.produced noteTemplates 1 }] := hlist
    rw [htext] at hsecond
    exact ⟨w, hsecond ▸ hrun⟩
  · obtain ⟨_, w, hupTo⟩ : ∃ a w,
        runFrom (notes.upTo 1) (notes.start firstTemplate) = (.ok a, w) := exists_ok (by decide +kernel)
    have hread : (runFrom (notes.upTo 1) (notes.start firstTemplate)).2.files.readText
        (notes.layout.templatePath "c") = .error .notFound := by decide +kernel
    have hpath : notes.layout.templatePath "c" = "c" := by decide +kernel
    rw [hupTo] at hread
    have hmissing : notes.Produces w secondNote (.error (.readTemplate "c" .notFound)) := by
      have hrenders : notes.Renders w ⟨secondNote, true⟩ _ := .unreadTemplate hread
      exact hpath ▸ .unrendered rfl hrenders
    obtain ⟨w', hrun, -, hcontents, -, hpublished⟩ := (run_sequential notes firstTemplate).2.1 1
      secondNote w _ hupTo rfl hmissing
    have hfiles : notes.artifacts firstTemplate 1 = [(["b"], "\n".toUTF8)] := by decide +kernel
    exact ⟨w', hrun, hfiles ▸ hcontents, hpublished⟩
  · obtain ⟨_, w, hupTo⟩ : ∃ a w,
        runFrom (onceNotes.upTo 1) (onceNotes.start noteTemplates) = (.ok a, w) :=
      exists_ok (by decide +kernel)
    have hread : (runFrom (onceNotes.upTo 1) (onceNotes.start noteTemplates)).2.files.readText
        (onceNotes.layout.templatePath "c") = .ok "" := by decide +kernel
    have htext : (Template.compile onceNotes.compiler
        (runFrom (onceNotes.upTo 1) (onceNotes.start noteTemplates)).2.files "" .null
        (runFrom (onceNotes.upTo 1) (onceNotes.start noteTemplates)).2.desk).1 = .ok "" := by
      decide +kernel
    have hrefused : onceNotes.approves
        (runFrom (onceNotes.upTo 1) (onceNotes.start noteTemplates)).2 secondNote "" = false := by
      decide +kernel
    rw [hupTo] at hread htext hrefused
    have hrenders : onceNotes.Renders w ⟨secondNote, true⟩ (.ok "") :=
      .note ⟨"", hread, Prod.ext htext rfl⟩ rfl
    obtain ⟨w', hrun, -, hcontents, -, hpublished⟩ := (run_sequential onceNotes noteTemplates).2.1 1
      secondNote w _ hupTo rfl (.refused rfl hrenders hrefused)
    have hfiles : onceNotes.artifacts noteTemplates 1 = [(["b"], "\n".toUTF8)] := by decide +kernel
    exact ⟨w', hrun, hfiles ▸ hcontents, hpublished⟩

end Plan
end Build
end Frontispiece
