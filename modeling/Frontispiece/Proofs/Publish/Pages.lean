import Frontispiece.Proofs.Computation
import Frontispiece.Proofs.Files.Growth
import Frontispiece.Publish.Pages

/-!
# Publishing finds what is there

Publishing looks for each artifact right before it copies it or makes its page.  The pages before
have been written into the same tree by then, and folders have been made in it.  None of this takes
an artifact away, so artifacts that are all there at first are all found.

A device takes what is written to it but is no file.  What an artifact was written to without a
fault may be one, and then publishing misses it.

## What is here

* `runFrom` — a step of publishing, run from a site.
* `Complete` — a step that, with all artifacts written, adds to the files and misses no artifact but
  those that went to a device.  It composes, because artifacts that are there stay there.
* `publishAll_complete` — publishing descriptors is such a step, by induction on them.

A missing artifact is one fault among several, and the theorem is about this one only: the others,
such as a folder that cannot be made, may happen at any time.  So the steps of publishing are not
shown to succeed but to fail in other ways than this one, and to leave the artifacts where they are
in any case.
-/

set_option autoImplicit false

namespace Frontispiece
namespace Publish

open Files (FileTree)
open Project (Descriptor Layout Registry)

variable {α β : Type}

/-- Running a step of publishing from a site. -/
def runFrom (x : Publishing α) (site : Site) : Except Fault α × Site :=
  x.run.run site

theorem runFrom_bind (x : Publishing α) (f : α → Publishing β) (site : Site) :
    runFrom (x >>= f) site = match runFrom x site with
      | (.ok a, site) => runFrom (f a) site
      | (.error e, site) => (.error e, site) := by
  rcases hfirst : runFrom x site with ⟨_ | _, site₁⟩
  · exact Computation.run_bind_error hfirst f
  · exact Computation.run_bind_ok hfirst f

theorem runFrom_get (site : Site) : runFrom get site = (.ok site, site) := rfl

/-! ## Steps that miss nothing

A step adds to the files and may fail, but not because an artifact is missing that was there before.
The first part is what makes the second go through sequences: artifacts that are there stay there.
-/

/-- The artifacts at paths are all there, but for those that a device has swallowed. -/
def Site.Has (site : Site) (artifacts : List String) : Prop :=
  ∀ path ∈ artifacts, site.files.isFile path = true ∨ site.files.IsSink path

/-- What a step answers and leaves, from a site on: more files than before, and no artifact missed
that is not at a device. -/
structure CompleteAt (artifacts : List String) (site : Site) (outcome : Except Fault α × Site) :
    Prop where
  grows : site.files.Grows outcome.2.files
  missed : ∀ path, outcome.1 = .error (.missingArtifact path) →
    path ∈ artifacts ∧ site.files.IsSink path

/-- A step that, with the artifacts at paths there, adds to the files and misses none of them. -/
def Complete (artifacts : List String) (x : Publishing α) : Prop :=
  ∀ site : Site, site.Has artifacts → CompleteAt artifacts site (runFrom x site)

variable {artifacts : List String}

/-- Artifacts that are there stay there. -/
theorem Site.Has.of_grows {site site' : Site} (h : site.Has artifacts)
    (hgrows : site.files.Grows site'.files) : site'.Has artifacts :=
  fun path hpath => (h path hpath).imp hgrows.isFile hgrows.isSink_iff.2

namespace Complete

theorem pure (a : α) : Complete artifacts (Pure.pure a : Publishing α) :=
  fun site _ => ⟨.refl site.files, fun _ h => by cases h⟩

theorem bind {x : Publishing α} {f : α → Publishing β} (hx : Complete artifacts x)
    (hf : ∀ a, Complete artifacts (f a)) : Complete artifacts (x >>= f) := by
  intro site hhas
  have hfirst := hx site hhas
  rw [runFrom_bind]
  generalize runFrom x site = first at hfirst
  obtain ⟨result, site₁⟩ := first
  cases result with
  | error e =>
    refine ⟨hfirst.grows, fun path h => hfirst.missed path ?_⟩
    cases h
    rfl
  | ok a =>
    have hnext := hf a site₁ (hhas.of_grows hfirst.grows)
    refine ⟨hfirst.grows.trans hnext.grows, fun path h => ?_⟩
    obtain ⟨hmem, hsink⟩ := hnext.missed path h
    exact ⟨hmem, hfirst.grows.isSink_iff.1 hsink⟩

/-- A step that looks at the site first. -/
theorem get_bind {f : Site → Publishing β}
    (hf : ∀ site : Site, site.Has artifacts → CompleteAt artifacts site (runFrom (f site) site)) :
    Complete artifacts (get >>= f) := by
  intro site hhas
  rw [runFrom_bind, runFrom_get]
  exact hf site hhas

/-- A fault of the files is no missing artifact. -/
theorem ofFiles (path : String) (result : Except Files.Fault α) :
    Complete artifacts (ofFiles path result) := by
  cases result with
  | ok a => exact .pure a
  | error cause => exact fun site _ => ⟨.refl site.files, fun _ h => by cases h⟩

/-- A step that replaces the files by more files, unless a fault of theirs stops it. -/
theorem ofFiles_bind_modify (path : String) (operation : FileTree → Except Files.Fault FileTree)
    (hgrows : ∀ t t', operation t = .ok t' → t.Grows t') :
    Complete artifacts (do
      let files ← Publish.ofFiles path (operation (← get).files)
      modify ({ · with files })) := by
  refine .get_bind fun site _ => ?_
  cases hresult : operation site.files with
  | error cause => exact ⟨.refl site.files, fun _ h => by cases h⟩
  | ok files => exact ⟨hgrows _ _ hresult, fun _ h => by cases h⟩

theorem createFolders (path : String) : Complete artifacts (createFolders path) := by
  refine .get_bind fun site _ => ?_
  have hgrows := FileTree.grows_createFolders site.files path
  generalize site.files.createFolders path = made at hgrows
  obtain ⟨result, files⟩ := made
  cases result with
  | error cause => exact ⟨hgrows, fun _ h => by cases h⟩
  | ok done => exact ⟨hgrows, fun _ h => by cases h⟩

theorem ensureParent (path : String) : Complete artifacts (ensureParent path) := by
  rw [Publish.ensureParent]
  split
  · exact .createFolders _
  · exact .pure ()

theorem write (path content : String) : Complete artifacts (write path content) :=
  .bind (.ensureParent path) fun _ =>
    .ofFiles_bind_modify path (·.write path content.toUTF8) fun _ _ => FileTree.grows_of_write

theorem copy (source path : String) : Complete artifacts (copy source path) :=
  .bind (.ensureParent path) fun _ =>
    .ofFiles_bind_modify path (·.copy source path) fun _ _ => FileTree.grows_of_copy

/-- Taking down the name of what was published. -/
theorem note (name : String) :
    Complete artifacts (modify fun site => { site with done := name :: site.done }) :=
  fun site _ => ⟨.refl site.files, fun _ h => by cases h⟩

end Complete

/-! ## Descriptors

A missing artifact is noticed right before it is copied or read.  At that time it is looked for in
the tree of that time, with all pages that were written until then. -/

/-- The paths of the artifacts of descriptors, below a folder. -/
def artifactPaths (out : String) (descriptors : List Descriptor) : List String :=
  descriptors.filterMap fun d => d.out.map (Files.join out)

theorem mem_artifactPaths {out path : String} {descriptors : List Descriptor} :
    path ∈ artifactPaths out descriptors ↔
      ∃ d ∈ descriptors, ∃ name, d.out = some name ∧ Files.join out name = path := by
  simp [artifactPaths]

/-- Publishing an artifact that must be found first.  One that is not is at a device. -/
theorem complete_of_found {x : Publishing β} {artifact : String} (hmem : artifact ∈ artifacts)
    (hx : Complete artifacts x) :
    Complete artifacts (do
      if !(← get).files.isFile artifact then throw (.missingArtifact artifact)
      x) := by
  refine .get_bind fun site hhas => ?_
  cases hfile : site.files.isFile artifact with
  | true => exact hx site hhas
  | false =>
    refine ⟨.refl site.files, fun path h => ?_⟩
    cases h
    exact ⟨hmem, (hhas artifact hmem).resolve_left (by simp [hfile])⟩

/-- **An artifact that is there is published**, unless files and folders stand in the way. -/
theorem publishOne_complete (out dist : String) (d : Descriptor)
    (hmem : ∀ name, d.out = some name → Files.join out name ∈ artifacts) :
    Complete artifacts (publishOne out dist d) := by
  rw [publishOne]
  split
  · exact .pure ()
  · next name hname =>
    refine complete_of_found (hmem name hname) ?_
    split
    · refine .get_bind fun site hhas => ?_
      refine Complete.bind (.ofFiles _ _) (fun text => .bind (.write _ _) fun _ => ?_) site hhas
      split
      · exact .bind (.write _ _) fun _ => .note name
      · exact .note name
    · exact .bind (.copy _ _) fun _ => .note name

/-- **Artifacts that are all there at first are all found**, whatever is published before each. -/
theorem publishAll_complete (out dist : String) : ∀ descriptors : List Descriptor,
    (∀ path ∈ artifactPaths out descriptors, path ∈ artifacts) →
    Complete artifacts (publishAll out dist descriptors)
  | [], _ => .pure ()
  | d :: rest, hmem => by
    have hhere : ∀ name, d.out = some name → Files.join out name ∈ artifacts := fun name hname =>
      hmem _ (mem_artifactPaths.mpr ⟨d, by simp, name, hname, rfl⟩)
    have hlater : ∀ path ∈ artifactPaths out rest, path ∈ artifacts := fun path hpath => by
      obtain ⟨d', hd', name, hname, hjoin⟩ := mem_artifactPaths.mp hpath
      exact hmem path (mem_artifactPaths.mpr ⟨d', by simp [hd'], name, hname, hjoin⟩)
    exact .bind (publishOne_complete out dist d hhere) fun _ => publishAll_complete out dist rest hlater

/-- Publishing the pages of descriptors whose artifacts are all there. -/
theorem pages_complete (templates : Registry) (layout : Layout) (folder : String) :
    Complete (artifactPaths (layout.outFolder folder) templates) (pages templates layout folder) :=
  .bind (.createFolders _) fun _ => publishAll_complete _ _ templates fun _ hpath => hpath

end Publish
end Frontispiece
