import Frontispiece.Proofs.Build.Run
import Frontispiece.Proofs.Publish.Pages

/-!
# Publishing after a build

The file of a descriptor is named twice: when its text is written, after the descriptor was
expanded, and when it is published, by the descriptors as they were before the build.  Both times it
is the same name, because a variant is written to the output that it names itself.  Nothing that a
build does later takes the file away.

An output may lead to a device, like `/dev/null`.  Writing to it succeeds and leaves no file, so that
publishing misses the artifact.

## What is here

* `Plan.Delivered` — the files of all descriptors before a position are there; by induction on the
  position a build that comes to it has delivered them.
* `Plan.publish_complete` — publishing pages after the last descriptor misses no artifact but those
  that went to a device.
* `Plan.exists_missingArtifact` — and it misses those.

There are two reasons for which an artifact could be missing: it was never written, or something has
replaced it.  The first is excluded since a build only comes to publishing when all its descriptors
succeeded.  The second is excluded because no operation on files takes a file away, not even one of
the publisher itself when the pages go to the folder of artifacts.

What is left are devices.  Writing to one succeeds, and yet there is no file at its path afterwards.
-/

set_option autoImplicit false

namespace Frontispiece
namespace Build

open Files (FileTree)
open Project (Descriptor OutputIndex)

/-- The path of a file that was written leads to a file, unless it leads to a device. -/
theorem isFile_of_writeFile {path text : String} {w w' : Workspace}
    (h : runFrom (writeFile path text) w = (.ok (), w')) (hkept : ¬w.files.IsSink path) :
    w'.files.isFile path = true := by
  have hput : ∀ {w₁ : Workspace}, ¬w₁.files.IsSink path →
      runFrom (putFile path text) w₁ = (.ok (), w') → w'.files.isFile path = true := by
    intro w₁ hkept h
    rw [putFile, runFrom_bind_ok (runFrom_get w₁)] at h
    split at h
    · next hwrite =>
      cases h
      exact FileTree.isFile_of_write hwrite hkept
    · cases h
  rw [writeFile] at h
  dsimp only at h
  split at h
  · next parent _ =>
    obtain ⟨_, w₁, hfolders, h⟩ := ok_of_runFrom_bind h
    have hgrows := Plan.createFolders_grows parent w
    rw [hfolders] at hgrows
    exact hput (mt (FileTree.Grows.isSink_iff hgrows).1 hkept) h
  · exact hput hkept h

namespace Plan

variable {p : Plan} {files : FileTree} {w w' : Workspace}

/-! ## Every descriptor has its file

What was delivered stays: later descriptors write files, and never make a file into something else.
So it is enough that a file is there right after it was written. -/

/-- The files of all descriptors before a position are there, but for those that went to a device. -/
def Delivered (p : Plan) (k : Nat) (w : Workspace) : Prop :=
  ∀ i < k, ∀ d, p.templates[i]? = some d → ∀ name, d.out = some name →
    ¬w.files.IsSink (p.artifactPath name) → w.files.isFile (p.artifactPath name) = true

theorem Delivered.of_grows {k : Nat} (h : p.Delivered k w) (hgrows : w.files.Grows w'.files) :
    p.Delivered k w' :=
  fun i hi d hd name hname hkept =>
    hgrows.isFile (h i hi d hd name hname (mt hgrows.isSink_iff.2 hkept))

theorem isFile_of_deliver {d : Descriptor} {text name : String} {kept : Option String}
    (hname : d.out = some name) (h : runFrom (p.deliver d text) w = (.ok kept, w'))
    (hkept : ¬w.files.IsSink (p.artifactPath name)) :
    w'.files.isFile (p.artifactPath name) = true := by
  rw [deliver, hname] at h
  obtain ⟨_, w₁, hwrite, h⟩ := ok_of_runFrom_bind h
  have hafter := p.carrying_grows.bind
    (p.carrying_grows.tell [⟨false, d.kind.name ++ " file generated: "
      ++ quoted (Files.join (p.layout.outFolder p.folder) name)⟩])
    (fun _ => p.carrying_grows.bind (p.carrying_grows.debugLog (quoted d.input ++ ": written"))
      fun _ => p.carrying_grows.pure (none : Option String)) w₁
  rw [h] at hafter
  exact FileTree.Grows.isFile hafter (isFile_of_writeFile hwrite hkept)

/-- The file of a descriptor is there once it was built, under the name that the descriptor has
before it is expanded. -/
theorem isFile_of_process {d : Descriptor} {name : String}
    {kept : Option String} (hname : d.out = some name)
    (h : runFrom (p.process p.index d) w = (.ok kept, w'))
    (hkept : ¬w.files.IsSink (p.artifactPath name)) :
    w'.files.isFile (p.artifactPath name) = true := by
  rw [process_eq] at h
  obtain ⟨⟨target, text⟩, w₁, hproduce, hdeliver⟩ := ok_of_runFrom_bind h
  have hsame := p.produce_keeps p.index d w
  rw [hproduce] at hsame
  exact isFile_of_deliver ((produce_out hproduce).trans hname) hdeliver (hsame.files ▸ hkept)

/-- The descriptor at a position takes a build to the next one. -/
theorem Delivered.processAt {k : Nat} (h : p.Delivered k w)
    (hupTo : runFrom (p.upTo k) (p.start files) = (.ok (), w))
    (hstep : runFrom (p.processAt p.index k) w = (.ok (), w')) : p.Delivered (k + 1) w' := by
  have hgrows := processAt_moves p.carrying_grows p.index k w
  rw [hstep] at hgrows
  intro i hi d hd name hname hkept
  by_cases hbefore : i < k
  · exact h.of_grows hgrows i hbefore d hd name hname hkept
  obtain rfl : i = k := by omega
  rw [Plan.processAt, runFrom_bind_ok (runFrom_get w), (upTo_built hupTo).templates, getElem?_filled,
    hd] at hstep
  obtain ⟨kept, w₁, hprocess, hstep⟩ := ok_of_runFrom_bind hstep
  have hfile := isFile_of_process hname hprocess (mt hgrows.isSink_iff.2 hkept)
  cases kept with
  | none =>
    cases hstep
    exact hfile
  | some text =>
    cases hstep
    exact hfile

/-- **A build that has come to a position has delivered the files before it**, by induction on the
position. -/
theorem upTo_delivered : ∀ {k : Nat} {w : Workspace},
    runFrom (p.upTo k) (p.start files) = (.ok (), w) → p.Delivered k w
  | 0, w, _ => fun i hi => by omega
  | k + 1, w, h => by
    rw [upTo_succ] at h
    obtain ⟨_, w₁, hupTo, hstep⟩ := ok_of_runFrom_bind h
    exact (upTo_delivered hupTo).processAt hupTo hstep

/-! ## Publishing

The publisher makes folders and files of its own, possibly in the folder that it reads from.  These
grow the tree as well, and a missing artifact can only be one that never was a file. -/

/-- What publishing starts from has the artifacts of all descriptors, but for those that went to a
device. -/
theorem has_of_upTo (h : runFrom (p.upTo p.templates.length) (p.start files) = (.ok (), w)) :
    Publish.Site.Has ⟨w.files, []⟩
      (Publish.artifactPaths (p.layout.outFolder p.folder) p.templates) := by
  intro path hpath
  obtain ⟨d, hd, name, hname, rfl⟩ := Publish.mem_artifactPaths.mp hpath
  obtain ⟨i, hi, hget⟩ := List.getElem_of_mem hd
  have hfile := upTo_delivered h i hi d (List.getElem?_eq_some_iff.mpr ⟨hi, hget⟩) name hname
  by_cases hsink : w.files.IsSink (p.artifactPath name)
  · exact .inr hsink
  · exact .inl (hfile hsink)

/-- The step of publishing ends as the publication does, which leaves its files and its lines. -/
theorem runFrom_publishAll {result : Except Publish.Fault Unit} {site : Publish.Site}
    (h : Publish.runFrom (p.publish p.templates p.layout p.folder) ⟨w.files, []⟩ = (result, site)) :
    runFrom p.publishAll w = (result.mapError .publish,
      { w with
        files := site.files
        journal := site.lines.foldl (fun j line => j.log .debug line)
          { w.journal with published := (p.folder, p.templates) :: w.journal.published } }) := by
  have hrun : (p.publish p.templates p.layout p.folder).run ⟨w.files, []⟩ = (result, site) := h
  rw [publishAll, runFrom_bind_ok (runFrom_modify _ w), runFrom_bind_ok (runFrom_get _)]
  simp only [hrun]
  cases result with
  | ok done => rfl
  | error fault => rfl

/-- A failure of publishing that processed descriptors cannot keep away: a fault of files and folders,
or an artifact that went to a device. -/
inductive Unpublished (p : Plan) (files : FileTree) : Failure → Prop
  | files (path : String) (cause : Files.Fault) : p.Unpublished files (.publish (.files path cause))
  | device {d : Descriptor} {name : String} (hd : d ∈ p.templates) (hname : d.out = some name)
    (hsink : files.IsSink (p.artifactPath name)) :
    p.Unpublished files (.publish (.missingArtifact (p.artifactPath name)))

/-- Publishing the pages of a build whose descriptors are all delivered: files are only added, and
the failure of publishing is a missing artifact only where there is a device. -/
theorem publishAll_complete (hpages : p.publish = Publish.pages)
    (h : runFrom (p.upTo p.templates.length) (p.start files) = (.ok (), w)) :
    w.files.Grows (runFrom p.publishAll w).2.files ∧
      ∀ e, (runFrom p.publishAll w).1 = .error e → p.Unpublished w.files e := by
  have hsite := Publish.pages_complete p.templates p.layout p.folder ⟨w.files, []⟩ (has_of_upTo h)
  obtain ⟨hgrows, hmissed⟩ := hsite
  -- from here on publishing is what it answers and the files that it leaves
  rw [← hpages] at hgrows hmissed
  rcases hpublish : Publish.runFrom (p.publish p.templates p.layout p.folder) ⟨w.files, []⟩
    with ⟨result, site⟩
  rw [hpublish] at hgrows hmissed
  rw [runFrom_publishAll hpublish]
  cases result with
  | ok done => exact ⟨hgrows, fun _ h => by cases h⟩
  | error fault =>
    refine ⟨hgrows, fun e he => ?_⟩
    cases he
    cases fault with
    | missingArtifact path =>
      obtain ⟨hpath, hsink⟩ := hmissed path rfl
      obtain ⟨d, hd, name, hname, rfl⟩ := Publish.mem_artifactPaths.mp hpath
      exact .device hd hname hsink
    | files path cause => exact .files path cause

/-- What is left of a build after its last descriptor. -/
theorem run_of_upTo (h : runFrom (p.upTo p.templates.length) (p.start files) = (.ok (), w)) :
    p.run files = runFrom p.finish w := by
  show runFrom p.steps (p.start files) = _
  rw [steps_eq]
  exact runFrom_bind_ok h _

/-- What a build does after its last descriptor: files are only added, and it fails as publishing
does. -/
theorem finish_complete (hpages : p.publish = Publish.pages)
    (h : runFrom (p.upTo p.templates.length) (p.start files) = (.ok (), w)) :
    w.files.Grows (runFrom p.finish w).2.files ∧
      ∀ e, (runFrom p.finish w).1 = .error e → p.Unpublished w.files e := by
  have hpublish := publishAll_complete hpages h
  rw [finish]
  split
  · generalize houtcome : runFrom p.publishAll w = outcome at hpublish
    obtain ⟨result, w₁⟩ := outcome
    cases result with
    | ok done =>
      rw [runFrom_bind_ok houtcome]
      exact ⟨hpublish.1, fun _ h => by cases h⟩
    | error e =>
      rw [runFrom_bind_error houtcome]
      refine ⟨hpublish.1, fun e' he => hpublish.2 e' ?_⟩
      cases he
      rfl
  · exact ⟨.refl w.files, fun _ h => by cases h⟩

/-- A build neither makes devices nor takes them away. -/
theorem Unpublished.of_grows {e : Failure} (h : p.Unpublished w.files e)
    (hgrows : files.Grows w.files) : p.Unpublished files e := by
  cases h with
  | files path cause => exact .files path cause
  | device hd hname hsink => exact .device hd hname (hgrows.isSink_iff.1 hsink)

/-- **Publishing after a build misses no artifact that is a file.**  When a build has come past its
last descriptor, then

* the file of every descriptor with an output is there, and it is still there at the end, unless the
  output leads to a device;
* publishing pages fails only for the faults of files and folders, and with a missing artifact only
  where an output leads to a device;
* so when no output does, no artifact is missing.

Outputs may be shared, lie in folders of their own or anywhere else, and be those of variants. -/
theorem publish_complete (p : Plan) (files : FileTree) (w : Workspace)
    (hpages : p.publish = Publish.pages)
    (hprocessed : runFrom (p.upTo p.templates.length) (p.start files) = (.ok (), w)) :
    (∀ d ∈ p.templates, ∀ name, d.out = some name → ¬files.IsSink (p.artifactPath name) →
      w.files.isFile (p.artifactPath name) = true ∧
        (p.run files).2.files.isFile (p.artifactPath name) = true) ∧
    (∀ e, (p.run files).1 = .error e → p.Unpublished files e) ∧
    ((∀ d ∈ p.templates, ∀ name, d.out = some name → ¬files.IsSink (p.artifactPath name)) →
      ∀ path, (p.run files).1 ≠ .error (.publish (.missingArtifact path))) := by
  have hgrows := upTo_grows hprocessed
  obtain ⟨hadded, hfailed⟩ := finish_complete hpages hprocessed
  rw [← run_of_upTo hprocessed] at hadded hfailed
  refine ⟨fun d hd name hname hkept => ?_, fun e he => (hfailed e he).of_grows hgrows,
    fun hkept path he => ?_⟩
  · have hfile := (has_of_upTo hprocessed (p.artifactPath name)
      (Publish.mem_artifactPaths.mpr ⟨d, hd, name, hname, rfl⟩)).resolve_right
        (mt hgrows.isSink_iff.1 hkept)
    exact ⟨hfile, hadded.isFile hfile⟩
  · cases (hfailed _ he).of_grows hgrows with
    | device hd hname hsink => exact hkept _ hd _ hname hsink

/-- Two notes with one file that are published as pages. -/
def sharedNotes : Plan :=
  { notes with
    templates := [⟨"a", some "b", .markdown, .null, true, none⟩,
      ⟨"c", some "b", .markdown, .null, true, none⟩]
    layout := ⟨"", "", "", "o", "d"⟩
    publish := Publish.pages }

set_option maxRecDepth 20000 in
/-- Both notes are processed, and publishing finds their file. -/
theorem sharedNotes_publish_complete :
    ∃ w, runFrom (sharedNotes.upTo 2) (sharedNotes.start noteTemplates) = (.ok (), w) ∧
      w.files.isFile "o/b" = true ∧ (sharedNotes.run noteTemplates).2.files.isFile "o/b" = true ∧
      ∀ path, (sharedNotes.run noteTemplates).1 ≠ .error (.publish (.missingArtifact path)) := by
  obtain ⟨_, w, hupTo⟩ : ∃ a w,
      runFrom (sharedNotes.upTo 2) (sharedNotes.start noteTemplates) = (.ok a, w) :=
    exists_ok (by decide +kernel)
  obtain ⟨hfiles, -, hfound⟩ := publish_complete sharedNotes noteTemplates w rfl hupTo
  have hpath : sharedNotes.artifactPath "b" = "o/b" := by decide +kernel
  have hkept : ¬noteTemplates.IsSink (sharedNotes.artifactPath "b") := by decide +kernel
  obtain ⟨hbefore, hafter⟩ := hfiles _ List.mem_cons_self "b" rfl hkept
  rw [hpath] at hbefore hafter
  refine ⟨w, hupTo, hbefore, hafter, hfound fun d hd name hname => ?_⟩
  simp only [sharedNotes, List.mem_cons, List.not_mem_nil, or_false] at hd
  obtain rfl | rfl := hd <;> cases hname <;> exact hkept

/-- A note whose file is the device that swallows everything. -/
def lostNote : Plan :=
  { sharedNotes with templates := [⟨"a", some "/dev/null", .markdown, .null, true, none⟩] }

/-- A folder with the template of the note, in a system with such a device. -/
def lostFiles : FileTree where
  ground := { home := ["work"] }
  entries := [(["a"], .file "".toUTF8), (["", "dev"], .folder), (["", "dev", "null"], .sink)]

set_option maxRecDepth 20000 in
/-- **An artifact can be missed** though its descriptor was processed: the device takes the text, and
there is no file at its path. -/
theorem exists_missingArtifact : ¬ ∀ (p : Plan) (files : FileTree) (w : Workspace),
    p.publish = Publish.pages → p.debug = false → p.skipPages = false →
    runFrom (p.upTo p.templates.length) (p.start files) = (.ok (), w) →
    ∀ path, (p.run files).1 ≠ .error (.publish (.missingArtifact path)) := by
  intro hall
  obtain ⟨_, w, hupTo⟩ : ∃ a w,
      runFrom (lostNote.upTo 1) (lostNote.start lostFiles) = (.ok a, w) :=
    exists_ok (by decide +kernel)
  have hmissed : (match (lostNote.run lostFiles).1 with
      | .error (.publish (.missingArtifact path)) => path == "/dev/null"
      | _ => false) = true := by
    decide +kernel
  split at hmissed
  · next path hrun => exact hall lostNote lostFiles w rfl rfl rfl hupTo path hrun
  · cases hmissed

end Plan
end Build
end Frontispiece
