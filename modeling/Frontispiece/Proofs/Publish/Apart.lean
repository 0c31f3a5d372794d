import Frontispiece.Proofs.Files.Kept
import Frontispiece.Proofs.Publish.Pages

/-!
# Pages that do not meet

A page is written at a path that is made from the name of its artifact, and different names can
make one path: `a.md` and a copied `a.html` do, and so do the index of the read-me and the page of
`index.md`.  The later of the two is what stays.  As long as no two descriptors write at one place
and none writes over an artifact, everything that is published is still there at the end, unless it
was written to a device.

## What is here

* `targets` — the paths at which publishing a descriptor writes.
* `Published` — the page or the copy of an artifact is there.
* `publishOne_published`, `publishAll_published` — what publishing one descriptor and what
  publishing all of them leaves.
* `publishAll_succeeds`, `pages_succeeds` — publishing gets to its end when the artifacts are there
  and the targets can be written.
* `pages_published` — publishing, from a tree as it is found.

The theorem has two hypotheses about the names in a build, that no two pages go to one place and
that none goes over an artifact.  Without the first it is false, as the example at the end shows,
even if all names are different.  Both are stated by places and not by names, because that is what
decides: two names may be one place by a link, or on the way through a folder and back.

Success is shown apart from what success leaves.  It has hypotheses about the tree before publishing
only, so they can be checked before anything is written.
-/

set_option autoImplicit false

namespace Frontispiece
namespace Publish

open Files (FileTree Ground)
open Project (Descriptor Kind Layout Registry)

variable {α β : Type}

/-- What succeeds does so step by step. -/
theorem ok_of_runFrom_bind {x : Publishing α} {f : α → Publishing β} {site site' : Site} {b : β}
    (h : runFrom (x >>= f) site = (.ok b, site')) :
    ∃ a site₁, runFrom x site = (.ok a, site₁) ∧ runFrom (f a) site₁ = (.ok b, site') :=
  Computation.ok_of_run_bind h

/-- Looking at the site first. -/
theorem runFrom_get_bind (f : Site → Publishing β) (site : Site) :
    runFrom (get >>= f) site = runFrom (f site) site := by
  rw [runFrom_bind, runFrom_get]

/-- What the files answer, when no fault of theirs stops publishing. -/
theorem ok_of_ofFiles {path : String} {result : Except Files.Fault α} {site site' : Site} {a : α}
    (h : runFrom (ofFiles path result) site = (.ok a, site')) : result = .ok a ∧ site' = site := by
  cases result with
  | error cause => cases h
  | ok b =>
    cases h
    exact ⟨rfl, rfl⟩

/-! ## Folders and files

Publishing makes the folder of a page and then writes the page, or copies.  Both change one place
only, and say so in terms of the tree from which publishing started. -/

section Operations

variable {site site' : Site} {path : String}

/-- To make folders changes the content of no place. -/
theorem createFolders_leaves (h : runFrom (createFolders path) site = (.ok (), site')) :
    FileTree.Leaves [] site.files site'.files := by
  rw [createFolders, runFrom_get_bind] at h
  have hleaves := FileTree.leaves_createFolders site.files path
  generalize site.files.createFolders path = made at h hleaves
  obtain ⟨result, files⟩ := made
  obtain ⟨_, _, hset, hresult⟩ := ok_of_runFrom_bind h
  obtain ⟨-, rfl⟩ := ok_of_ofFiles hresult
  obtain rfl : { site with files } = _ := congrArg Prod.snd hset
  exact hleaves

theorem ensureParent_leaves (h : runFrom (ensureParent path) site = (.ok (), site')) :
    FileTree.Leaves [] site.files site'.files := by
  rw [ensureParent] at h
  split at h
  · exact createFolders_leaves h
  · cases h
    exact .refl site.files

/-- A step that makes the folder of a path and then replaces the files. -/
theorem ok_of_replace (operation : FileTree → Except Files.Fault FileTree)
    (h : runFrom (do
      ensureParent path
      let files ← ofFiles path (operation (← get).files)
      modify ({ · with files })) site = (.ok (), site')) :
    ∃ files, FileTree.Leaves [] site.files files ∧ operation files = .ok site'.files := by
  obtain ⟨_, site₁, hparent, hrest⟩ := ok_of_runFrom_bind h
  rw [runFrom_get_bind] at hrest
  obtain ⟨files, _, hfiles, hset⟩ := ok_of_runFrom_bind hrest
  obtain ⟨hresult, rfl⟩ := ok_of_ofFiles hfiles
  obtain rfl : _ = site' := congrArg Prod.snd hset
  exact ⟨_, ensureParent_leaves hparent, hresult⟩

/-- Writing leaves everything but the place of its path alone, and what is written can be read
there, unless it is a sink. -/
theorem write_leaves {content : String}
    (h : runFrom (write path content) site = (.ok (), site')) :
    FileTree.Leaves [site.files.ground.placeOf path] site.files site'.files ∧
      (¬site.files.IsSink path → site'.files.read path = .ok content.toUTF8) := by
  obtain ⟨files, hparent, hwrite⟩ := ok_of_replace (·.write path content.toUTF8) h
  obtain ⟨hleaves, hread⟩ := FileTree.leaves_of_write hwrite
  rw [hparent.grows.ground] at hleaves
  exact ⟨(hparent.mono (by simp)).trans hleaves,
    fun hkept => hread (mt hparent.grows.isSink_iff.1 hkept)⟩

/-- A page that is written a second time, at whatever path, stays at the first. -/
theorem write_again {content other : String}
    (h : runFrom (write path content) site = (.ok (), site')) (hkept : ¬site.files.IsSink path)
    (hread : site.files.read other = .ok content.toUTF8) :
    site'.files.read other = .ok content.toUTF8 := by
  obtain ⟨hleaves, hwritten⟩ := write_leaves h
  by_cases hsame : site.files.ground.placeOf other = site.files.ground.placeOf path
  · have hheld := FileTree.content?_of_read (hwritten hkept)
      (mt hleaves.grows.isSink_iff.1 hkept)
    rw [hleaves.grows.ground, ← hsame] at hheld
    exact hleaves.grows.read hread hheld
  · exact hleaves.read (by simpa using hsame) hread

/-- Copying does the same.  The copy says what its source said, if the two are different places. -/
theorem copy_leaves {source : String} (h : runFrom (copy source path) site = (.ok (), site')) :
    FileTree.Leaves [site.files.ground.placeOf path] site.files site'.files ∧
      (site.files.ground.placeOf path ≠ site.files.ground.placeOf source →
        ¬site.files.IsSink path → ∃ content, site'.files.read source = .ok content ∧
          site'.files.read path = .ok content) := by
  obtain ⟨files, hparent, hcopy⟩ := ok_of_replace (·.copy source path) h
  obtain ⟨hleaves, hread⟩ := FileTree.leaves_of_copy hcopy
  have hground := hparent.grows.ground
  refine ⟨(hparent.mono (by simp)).trans (hground ▸ hleaves), fun hapart hkept => ?_⟩
  rw [← hground] at hapart
  obtain ⟨content, hsource, hpath⟩ := hread hapart (mt hparent.grows.isSink_iff.1 hkept)
  exact ⟨content, hleaves.read (by simpa using hapart.symm) hsource, hpath⟩

end Operations

/-! ## Descriptors

By induction on the descriptors.  What the first one writes is still there after the others if none
of them writes at the same place; and what the others read is still there after the first if it
writes over no artifact. -/

section Descriptors

variable {ground : Ground} {out dist : String}

/-- The paths at which publishing a descriptor writes. -/
def targets (dist : String) (d : Descriptor) : List String :=
  match d.out with
  | none => []
  | some name =>
    if d.kind == .markdown then
      Files.withExtension (Files.join dist name) "html" ::
        if isIndexSource name then [Files.join dist "index.html"] else []
    else [Files.join dist name]

/-- The places at which publishing descriptors writes. -/
def targetPlaces (ground : Ground) (dist : String) (descriptors : List Descriptor) :
    List (List String) :=
  (descriptors.flatMap (targets dist)).map ground.placeOf

/-- The artifact of a descriptor is published in a tree: its page is there, and for the read-me it
is the index, too, or else its copy. -/
structure Published (out dist : String) (files : FileTree) (d : Descriptor) (name : String) :
    Prop where
  page : d.kind = .markdown → ∃ text, files.readText (Files.join out name) = .ok text ∧
    files.read (Files.withExtension (Files.join dist name) "html")
      = .ok (pageOf name text).toUTF8 ∧
    (isIndexSource name = true →
      files.read (Files.join dist "index.html") = .ok (pageOf name text).toUTF8)
  copy : d.kind ≠ .markdown → ∃ content, files.read (Files.join out name) = .ok content ∧
    files.read (Files.join dist name) = .ok content

/-- What is published stays so in a tree that has changed at other places only. -/
theorem Published.of_leaves {places : List (List String)} {files files' : FileTree}
    {d : Descriptor} {name : String} (h : Published out dist files d name)
    (hout : d.out = some name) (hleaves : FileTree.Leaves places files files')
    (hartifact : files.ground.placeOf (Files.join out name) ∉ places)
    (htargets : ∀ path ∈ targets dist d, files.ground.placeOf path ∉ places) :
    Published out dist files' d name := by
  constructor
  · intro hkind
    obtain ⟨text, htext, hpage, hindex⟩ := h.page hkind
    simp only [targets, hout, hkind, BEq.rfl, if_true] at htargets
    refine ⟨text, hleaves.readText hartifact htext,
      hleaves.read (htargets _ List.mem_cons_self) hpage, fun hreadme => ?_⟩
    refine hleaves.read (htargets _ ?_) (hindex hreadme)
    rw [if_pos hreadme]
    simp
  · intro hkind
    obtain ⟨content, hsource, hcopy⟩ := h.copy hkind
    refine ⟨content, hleaves.read hartifact hsource, hleaves.read (htargets _ ?_) hcopy⟩
    simp [targets, hout, hkind]

/-- **What publishing one descriptor leaves**: it writes at its targets only, and unless one of them
is the artifact or a device, the artifact is published. -/
theorem publishOne_published {d : Descriptor} {site site' : Site}
    (h : runFrom (publishOne out dist d) site = (.ok (), site')) :
    FileTree.Leaves ((targets dist d).map site.files.ground.placeOf) site.files site'.files ∧
      ∀ name, d.out = some name →
        site.files.ground.placeOf (Files.join out name)
          ∉ (targets dist d).map site.files.ground.placeOf →
        (∀ path ∈ targets dist d, ¬site.files.IsSink path) →
        Published out dist site'.files d name := by
  rw [publishOne] at h
  rw [targets]
  split at h
  · next hnone =>
    cases h
    exact ⟨.refl site.files, fun name hname => by simp [hnone] at hname⟩
  next name hname =>
  rw [hname]
  dsimp only at h ⊢
  rw [runFrom_get_bind] at h
  split at h
  · cases h
  split at h
  · next hkind =>
    -- a page of its own, and maybe the index as well
    have hmarkdown : d.kind = .markdown := by simpa using hkind
    rw [if_pos hkind]
    rw [runFrom_get_bind] at h
    obtain ⟨text, site₀, hread, hwrite⟩ := ok_of_runFrom_bind h
    obtain ⟨htext, rfl⟩ := ok_of_ofFiles hread
    obtain ⟨_, site₁, hpage, hrest⟩ := ok_of_runFrom_bind hwrite
    obtain ⟨hfirst, hwritten⟩ := write_leaves hpage
    split at hrest
    · next hreadme =>
      obtain ⟨_, site₂, hindex, hnote⟩ := ok_of_runFrom_bind hrest
      obtain rfl : { site₂ with done := name :: site₂.done } = site' := congrArg Prod.snd hnote
      obtain ⟨hsecond, hagain⟩ := write_leaves hindex
      rw [hfirst.grows.ground] at hsecond
      have hleaves : FileTree.Leaves ([Files.withExtension (Files.join dist name) "html",
          Files.join dist "index.html"].map site₀.files.ground.placeOf) _ site₂.files :=
        (hfirst.mono (by simp)).trans (hsecond.mono (by simp))
      rw [if_pos hreadme]
      refine ⟨hleaves, fun _ hname' hapart hkept => ?_⟩
      cases hname'
      -- the index may be the file of the page, but then it says the same
      have hindexKept := mt hfirst.grows.isSink_iff.1 (hkept _ (.tail _ List.mem_cons_self))
      have hpageRead := write_again hindex hindexKept (hwritten (hkept _ List.mem_cons_self))
      exact ⟨fun _ => ⟨text, hleaves.readText hapart htext, hpageRead, fun _ => hagain hindexKept⟩,
        fun hother => absurd hmarkdown hother⟩
    · next hreadme =>
      obtain rfl : { site₁ with done := name :: site₁.done } = site' := congrArg Prod.snd hrest
      rw [if_neg hreadme]
      refine ⟨hfirst, fun _ hname' hapart hkept => ?_⟩
      cases hname'
      have hpageRead := hwritten (hkept _ List.mem_cons_self)
      exact ⟨fun _ => ⟨text, hfirst.readText hapart htext, hpageRead,
        fun hindex => absurd hindex hreadme⟩, fun hother => absurd hmarkdown hother⟩
  · next hkind =>
    -- anything else is copied
    have hother : d.kind ≠ .markdown := by simpa using hkind
    rw [if_neg hkind]
    obtain ⟨_, site₁, hcopy, hnote⟩ := ok_of_runFrom_bind h
    obtain rfl : { site₁ with done := name :: site₁.done } = site' := congrArg Prod.snd hnote
    obtain ⟨hleaves, hcopied⟩ := copy_leaves hcopy
    refine ⟨hleaves, fun _ hname' hapart hkept => ?_⟩
    cases hname'
    exact ⟨fun hmarkdown => absurd hmarkdown hother,
      fun _ => hcopied (fun hsame => hapart (by simp [hsame])) (hkept _ List.mem_cons_self)⟩

/-- The places that descriptors write to are those of their targets. -/
theorem mem_targetPlaces {place : List String} {descriptors : List Descriptor} :
    place ∈ targetPlaces ground dist descriptors ↔
      ∃ d ∈ descriptors, ∃ path ∈ targets dist d, ground.placeOf path = place := by
  simp only [targetPlaces, List.mem_map, List.mem_flatMap]
  constructor
  · rintro ⟨path, ⟨d, hd, hpath⟩, hplace⟩
    exact ⟨d, hd, path, hpath, hplace⟩
  · rintro ⟨d, hd, path, hpath, hplace⟩
    exact ⟨path, ⟨d, hd, hpath⟩, hplace⟩

/-- No descriptor writes over an artifact. -/
def Spares (ground : Ground) (out dist : String) (descriptors : List Descriptor) : Prop :=
  ∀ d ∈ descriptors, ∀ name, d.out = some name →
    ground.placeOf (Files.join out name) ∉ targetPlaces ground dist descriptors

theorem Spares.tail {d : Descriptor} {rest : List Descriptor}
    (h : Spares ground out dist (d :: rest)) : Spares ground out dist rest := by
  intro e he name hname hmem
  refine h e (.tail d he) name hname ?_
  simp only [targetPlaces, List.flatMap_cons, List.map_append, List.mem_append]
  exact .inr hmem

/-- What the first descriptor writes is no artifact, and neither is what the others write. -/
theorem Spares.head {d e : Descriptor} {rest : List Descriptor} {name : String}
    (h : Spares ground out dist (d :: rest)) (he : e ∈ d :: rest) (hname : e.out = some name) :
    ground.placeOf (Files.join out name) ∉ (targets dist d).map ground.placeOf ∧
      ground.placeOf (Files.join out name) ∉ targetPlaces ground dist rest := by
  have hartifact := h e he name hname
  simp only [targetPlaces, List.flatMap_cons, List.map_append, List.mem_append, not_or] at hartifact
  exact hartifact

/-- No two descriptors write at one place, and none writes over an artifact. -/
structure Apart (ground : Ground) (out dist : String) (descriptors : List Descriptor) : Prop where
  distinct : descriptors.Pairwise fun d e =>
    ∀ path ∈ targets dist d, ∀ other ∈ targets dist e, ground.placeOf path ≠ ground.placeOf other
  spared : Spares ground out dist descriptors

/-- **What publishing descriptors leaves**: it writes at their targets only, and as long as these
are apart, every artifact is published in the end that is not written to a device. -/
theorem publishAll_published : ∀ {descriptors : List Descriptor} {site site' : Site},
    runFrom (publishAll out dist descriptors) site = (.ok (), site') →
    FileTree.Leaves (targetPlaces site.files.ground dist descriptors) site.files site'.files ∧
      (Apart site.files.ground out dist descriptors → ∀ d ∈ descriptors, ∀ name,
        d.out = some name → (∀ path ∈ targets dist d, ¬site.files.IsSink path) →
        Published out dist site'.files d name)
  | [], site, site', h => by
    obtain rfl : site = site' := congrArg Prod.snd h
    exact ⟨.refl site.files, by simp⟩
  | d :: rest, site, site', h => by
    obtain ⟨_, site₁, hone, hrest⟩ := ok_of_runFrom_bind h
    obtain ⟨hfirst, hpublished⟩ := publishOne_published hone
    obtain ⟨hlater, ih⟩ := publishAll_published hrest
    have hground := hfirst.grows.ground
    rw [hground] at hlater ih
    refine ⟨.trans (hfirst.mono ?_) (hlater.mono ?_), fun hapart => ?_⟩
    · exact fun place hplace => by simp [targetPlaces, List.mem_map.mp hplace]
    · exact fun place hplace => by simpa [targetPlaces] using .inr (by simpa [targetPlaces] using hplace)
    intro e he name hname hkept
    obtain rfl | he := List.mem_cons.mp he
    · have hartifact := hapart.spared.head List.mem_cons_self hname
      -- the later descriptors write at none of its paths, nor at its artifact
      refine (hpublished name hname hartifact.1 hkept).of_leaves hname hlater ?_ ?_
      · rw [hground]
        exact hartifact.2
      intro path hpath hmem
      rw [hground] at hmem
      obtain ⟨other, hother, target, htarget, hsame⟩ := mem_targetPlaces.mp hmem
      exact List.rel_of_pairwise_cons hapart.distinct hother path hpath target htarget hsame.symm
    · exact ih ⟨hapart.distinct.of_cons, hapart.spared.tail⟩ e he name hname
        fun path hpath => mt hfirst.grows.isSink_iff.1 (hkept path hpath)

/-- Publishing writes at the targets of descriptors only. -/
theorem pages_leaves {templates : Registry} {layout : Layout} {folder : String}
    {site site' : Site}
    (h : runFrom (pages templates layout folder) site = (.ok (), site')) :
    FileTree.Leaves (targetPlaces site.files.ground (layout.distFolder folder) templates)
      site.files site'.files := by
  obtain ⟨_, site₁, hfolder, hall⟩ := ok_of_runFrom_bind h
  have hmade := createFolders_leaves hfolder
  have hleaves := (publishAll_published hall).1
  rw [hmade.grows.ground] at hleaves
  exact (hmade.mono (by simp)).trans hleaves

/-- **Published pages stay.**  When publishing succeeds, no two descriptors write at one place, and
none writes over an artifact, then in the end

* the artifacts are what they were;
* for every Markdown descriptor the path of its name with the extension `html` holds the page of
  its own artifact, and for the read-me the index holds that page, too;
* for every other descriptor the path of its name holds the bytes of its artifact,

but for a descriptor that is written to a device, which holds nothing. -/
theorem pages_published (templates : Registry) (layout : Layout) (folder : String)
    (site site' : Site)
    (hrun : runFrom (pages templates layout folder) site = (.ok (), site'))
    (hapart : Apart site.files.ground (layout.outFolder folder) (layout.distFolder folder)
      templates) :
    ∀ d ∈ templates, ∀ name, d.out = some name →
      ((∀ path ∈ targets (layout.distFolder folder) d, ¬site.files.IsSink path) →
        Published (layout.outFolder folder) (layout.distFolder folder) site'.files d name) ∧
      ∀ content, site.files.read (Files.join (layout.outFolder folder) name) = .ok content →
        site'.files.read (Files.join (layout.outFolder folder) name) = .ok content := by
  obtain ⟨_, site₁, hfolder, hall⟩ := ok_of_runFrom_bind hrun
  have hmade := (createFolders_leaves hfolder).grows
  intro d hd name hname
  refine ⟨fun hkept => ?_, fun content => (pages_leaves hrun).read (hapart.spared d hd name hname)⟩
  exact (publishAll_published hall).2 (hmade.ground ▸ hapart) d hd name hname
    fun path hpath => mt hmade.isSink_iff.1 (hkept path hpath)

/-! ## When publishing succeeds

That nothing is lost is said of runs that succeed, which could be none.  Here it is the tree before
publishing from which it is seen that the run succeeds: the artifacts are there, and no folder is in
the way of a page. -/

theorem runFrom_bind_ok {x : Publishing α} {site site₁ : Site} {a : α}
    (h : runFrom x site = (.ok a, site₁)) (f : α → Publishing β) :
    runFrom (x >>= f) site = runFrom (f a) site₁ :=
  Computation.run_bind_ok h f

/-- A step that succeeds and adds files only. -/
def Succeeds (x : Publishing Unit) (site : Site) : Prop :=
  ∃ site', runFrom x site = (.ok (), site') ∧ site.files.Fills site'.files

theorem Succeeds.bind {x y : Publishing Unit} {site : Site} (hx : Succeeds x site)
    (hy : ∀ site₁, runFrom x site = (.ok (), site₁) → site.files.Fills site₁.files →
      Succeeds y site₁) : Succeeds (x >>= fun _ => y) site := by
  obtain ⟨site₁, hrun, hfills⟩ := hx
  obtain ⟨site₂, hrun', hfills'⟩ := hy site₁ hrun hfills
  exact ⟨site₂, by rw [runFrom_bind_ok hrun, hrun'], hfills.trans hfills'⟩

theorem Succeeds.modify_done {site : Site} (change : List String → List String) :
    Succeeds (modify fun site => { site with done := change site.done }) site :=
  ⟨_, rfl, .refl site.files⟩

/-- Folders that are there need not be made. -/
theorem ensureParent_run {path : String} {site : Site} (h : site.files.IsOpen path) :
    runFrom (ensureParent path) site = (.ok (), site) := by
  obtain ⟨hfolder, -⟩ := h
  rw [ensureParent]
  split
  · next parent hparent =>
    rw [hparent] at hfolder
    rw [createFolders, runFrom_get_bind, FileTree.createFolders_of_isFolder hfolder]
    rfl
  · rfl

theorem write_succeeds {path : String} (content : String) {site : Site}
    (h : site.files.IsOpen path) : Succeeds (write path content) site := by
  obtain ⟨place, htarget⟩ := h.target
  refine ⟨{ site with files := site.files.fill place content.toUTF8 }, ?_,
    FileTree.fills_fill (FileTree.target_eq_ok_iff.1 htarget).2.2 _⟩
  rw [write, runFrom_bind_ok (ensureParent_run h), runFrom_get_bind, FileTree.write, htarget]
  rfl

theorem copy_succeeds {source path : String} {site : Site} (hsource : site.files.isFile source = true)
    (h : site.files.IsOpen path) : Succeeds (copy source path) site := by
  obtain ⟨files, hcopy, hfills⟩ := h.copy hsource
  refine ⟨{ site with files }, ?_, hfills⟩
  rw [copy, runFrom_bind_ok (ensureParent_run h), runFrom_get_bind, hcopy]
  rfl

/-- Nothing stands in the way of publishing a descriptor: its artifact is there, a Markdown artifact
is text, and its targets can be written. -/
structure Clear (out dist : String) (files : FileTree) (d : Descriptor) : Prop where
  artifact : ∀ name, d.out = some name → files.isFile (Files.join out name) = true
  text : ∀ name, d.out = some name → d.kind = .markdown →
    ∃ text, files.readText (Files.join out name) = .ok text
  targets : ∀ path ∈ targets dist d, files.IsOpen path

/-- A descriptor stays clear while files are written at other places than its artifact. -/
theorem Clear.of_fills {places : List (List String)} {files files' : FileTree} {d : Descriptor}
    (h : Clear out dist files d) (hfills : files.Fills files')
    (hleaves : FileTree.Leaves places files files')
    (hartifact : ∀ name, d.out = some name →
      files.ground.placeOf (Files.join out name) ∉ places) :
    Clear out dist files' d where
  artifact name hname := hfills.grows.isFile (h.artifact name hname)
  text name hname hkind := by
    obtain ⟨text, htext⟩ := h.text name hname hkind
    exact ⟨text, hleaves.readText (hartifact name hname) htext⟩
  targets path hpath := hfills.isOpen (h.targets path hpath)

/-- An artifact is published if its file can be read and its targets can be written. -/
theorem publishOne_succeeds {d : Descriptor} {site : Site} (h : Clear out dist site.files d) :
    Succeeds (publishOne out dist d) site := by
  obtain ⟨hartifact, htext, htargets⟩ := h
  rw [targets] at htargets
  rw [publishOne]
  split
  · exact ⟨site, rfl, .refl site.files⟩
  next name hname =>
  rw [hname] at hartifact htext htargets
  have hfile := hartifact name rfl
  dsimp only at htargets ⊢
  rw [Succeeds, runFrom_get_bind, hfile]
  show Succeeds (if d.kind == .markdown then _ else _) site
  split
  · next hkind =>
    rw [if_pos hkind] at htargets
    obtain ⟨text, hread⟩ := htext name rfl (by simpa using hkind)
    have htext' : runFrom (ofFiles (Files.join out name)
        (site.files.readText (Files.join out name))) site = (.ok text, site) := by
      rw [hread]
      rfl
    rw [Succeeds, runFrom_get_bind, runFrom_bind_ok htext']
    refine (write_succeeds _ (htargets _ List.mem_cons_self)).bind fun site₁ _ hfills => ?_
    split
    · next hreadme =>
      have hindex := hfills.isOpen (htargets (Files.join dist "index.html") (by simp [hreadme]))
      exact (write_succeeds _ hindex).bind fun _ _ _ => .modify_done (name :: ·)
    · exact .modify_done (name :: ·)
  · next hkind =>
    rw [if_neg hkind] at htargets
    refine (copy_succeeds hfile (htargets _ List.mem_cons_self)).bind fun _ _ _ => ?_
    exact .modify_done (name :: ·)

/-- **Publishing descriptors succeeds when nothing stands in its way.** -/
theorem publishAll_succeeds : ∀ {descriptors : List Descriptor} {site : Site},
    Spares site.files.ground out dist descriptors →
    (∀ d ∈ descriptors, Clear out dist site.files d) →
    Succeeds (publishAll out dist descriptors) site
  | [], site, _, _ => ⟨site, rfl, .refl site.files⟩
  | d :: rest, site, hspared, hclear => by
    refine (publishOne_succeeds (hclear d List.mem_cons_self)).bind fun site₁ hone hfills => ?_
    obtain ⟨hleaves, -⟩ := publishOne_published hone
    refine publishAll_succeeds (hleaves.grows.ground ▸ hspared.tail) fun e he => ?_
    refine (hclear e (.tail d he)).of_fills hfills hleaves fun name hname => ?_
    exact (hspared.head (.tail d he) hname).1

/-- Publishing succeeds when the folder of the pages is there and nothing stands in the way. -/
theorem pages_succeeds {templates : Registry} {layout : Layout} {folder : String} {site : Site}
    (hspared : Spares site.files.ground (layout.outFolder folder) (layout.distFolder folder)
      templates)
    (hfolder : site.files.isFolder (layout.distFolder folder) = true)
    (hclear : ∀ d ∈ templates,
      Clear (layout.outFolder folder) (layout.distFolder folder) site.files d) :
    Succeeds (pages templates layout folder) site := by
  have hmade : runFrom (createFolders (layout.distFolder folder)) site = (.ok (), site) := by
    rw [createFolders, runFrom_get_bind, FileTree.createFolders_of_isFolder hfolder]
    rfl
  rw [Succeeds, pages, runFrom_bind_ok hmade]
  exact publishAll_succeeds hspared hclear

end Descriptors

/-! ## A read-me, and what takes its index

A project in which pages do not meet, and one in which two of them do.  In the second the names of
all artifacts differ, and so do the names of their pages; only the index has two pages that claim
it. -/

/-- Three empty artifacts below `o/x`, and the folder `d/x` for their pages. -/
def shelved : Site where
  files.entries := [(["o"], .folder), (["o", "x"], .folder), (["d"], .folder),
    (["d", "x"], .folder), (["o", "x", "ReadMe.md"], .file ByteArray.empty),
    (["o", "x", "index.md"], .file ByteArray.empty), (["o", "x", "b.svg"], .file ByteArray.empty)]
  done := []

/-- The folders of the project. -/
def shelf : Layout := ⟨"", "", "", "o", "d"⟩

theorem shelved_isFolder : shelved.files.isFolder (shelf.distFolder "x") = true := by
  with_unfolding_all rfl

/-- The files of the shelf are all empty. -/
theorem shelved_read : ∀ name ∈ ["ReadMe.md", "index.md", "b.svg"],
    shelved.files.read (Files.join (shelf.outFolder "x") name) = .ok ByteArray.empty := by
  intro name hname
  have hread : ∀ name ∈ ["ReadMe.md", "index.md", "b.svg"],
      (shelved.files.read (Files.join (shelf.outFolder "x") name)).toOption
        = some ByteArray.empty := by
    with_unfolding_all decide
  have hsome := hread name hname
  cases h : shelved.files.read (Files.join (shelf.outFolder "x") name) with
  | error fault => cases h ▸ hsome
  | ok content =>
    rw [h] at hsome
    exact congrArg Except.ok (Option.some.inj hsome)

/-- A file with nothing in it is the empty text. -/
theorem readText_of_read_empty {files : FileTree} {path : String}
    (h : files.read path = .ok ByteArray.empty) : files.readText path = .ok "" :=
  FileTree.readText_of_read h

/-- Nothing stands in the way of an output that is on the shelf. -/
theorem shelved_clear {d : Descriptor} {name : String} (hname : d.out = some name)
    (hthere : name ∈ ["ReadMe.md", "index.md", "b.svg"]) :
    Clear (shelf.outFolder "x") (shelf.distFolder "x") shelved.files d := by
  have hfile : ∀ name ∈ ["ReadMe.md", "index.md", "b.svg"],
      shelved.files.isFile (Files.join (shelf.outFolder "x") name) = true := by
    with_unfolding_all decide
  have hopen : ∀ name ∈ ["ReadMe.md", "index.md", "b.svg"],
      ∀ path ∈ [Files.withExtension (Files.join (shelf.distFolder "x") name) "html",
        Files.join (shelf.distFolder "x") "index.html", Files.join (shelf.distFolder "x") name],
      shelved.files.IsOpen path := by
    simp only [FileTree.IsOpen]
    decide +kernel
  refine ⟨fun other hother => ?_, fun other hother _ => ⟨"", ?_⟩, fun path hpath => ?_⟩
  · cases hname.symm.trans hother
    exact hfile _ hthere
  · cases hname.symm.trans hother
    exact readText_of_read_empty (shelved_read _ hthere)
  · refine hopen name hthere path ?_
    simp only [targets, hname] at hpath
    grind

/-- A read-me and a drawing. -/
def illustrated : Registry :=
  [⟨"r", some "ReadMe.md", .markdown, .null, true, none⟩,
    ⟨"b", some "b.svg", .svg, .null, true, none⟩]

/-- The read-me is published as the index, and the drawing as its copy. -/
theorem illustrated_published : ∃ site',
    runFrom (pages illustrated shelf "x") shelved = (.ok (), site') ∧
      Apart shelved.files.ground (shelf.outFolder "x") (shelf.distFolder "x") illustrated ∧
      site'.files.read (Files.join (shelf.distFolder "x") "index.html")
        = .ok (pageOf "ReadMe.md" "").toUTF8 ∧
      site'.files.read (Files.join (shelf.distFolder "x") "b.svg") = .ok ByteArray.empty := by
  have hapart : Apart shelved.files.ground (shelf.outFolder "x") (shelf.distFolder "x")
      illustrated := by
    refine ⟨by with_unfolding_all decide, ?_⟩
    rw [Spares]
    with_unfolding_all decide
  obtain ⟨site', hrun, -⟩ := pages_succeeds hapart.spared shelved_isFolder (by
    simp only [illustrated, List.mem_cons, List.not_mem_nil, or_false, forall_eq_or_imp, forall_eq]
    exact ⟨shelved_clear rfl (by simp), shelved_clear rfl (by simp)⟩)
  have hpublished := pages_published illustrated shelf "x" shelved site' hrun hapart
  obtain ⟨hreadMe, hkept⟩ := hpublished _ List.mem_cons_self "ReadMe.md" rfl
  obtain ⟨text, htext, -, hindex⟩ := (hreadMe (by with_unfolding_all decide)).page rfl
  obtain ⟨hdrawing, hkept'⟩ := hpublished _ (.tail _ List.mem_cons_self) "b.svg" rfl
  obtain ⟨content, hcontent, hcopy⟩ := (hdrawing (by with_unfolding_all decide)).copy nofun
  cases htext.symm.trans (readText_of_read_empty (hkept _ (shelved_read _ (by simp))))
  cases hcontent.symm.trans (hkept' _ (shelved_read _ (by simp)))
  exact ⟨site', hrun, hapart, hindex (by decide), hcopy⟩

/-- A read-me, and a note whose page is called like the index. -/
def twoIndexes : Registry :=
  [⟨"r", some "ReadMe.md", .markdown, .null, true, none⟩,
    ⟨"i", some "index.md", .markdown, .null, true, none⟩]

/-- **A page can be lost**, although all artifacts have names of their own and publishing succeeds:
the page of `index.md` takes the place of the index that the read-me has made. -/
theorem exists_pages_not_published : ¬ ∀ (templates : Registry) (layout : Layout) (folder : String)
    (site site' : Site), (templates.filterMap (·.out)).Nodup →
    runFrom (pages templates layout folder) site = (.ok (), site') →
    ∀ d ∈ templates, ∀ name, d.out = some name →
      Published (layout.outFolder folder) (layout.distFolder folder) site'.files d name := by
  intro hall
  have hspared : Spares shelved.files.ground (shelf.outFolder "x") (shelf.distFolder "x")
      twoIndexes := by
    rw [Spares]
    with_unfolding_all decide
  obtain ⟨site', hrun, -⟩ := pages_succeeds hspared shelved_isFolder (by
    simp only [twoIndexes, List.mem_cons, List.not_mem_nil, or_false, forall_eq_or_imp, forall_eq]
    exact ⟨shelved_clear rfl (by simp), shelved_clear rfl (by simp)⟩)
  have hpublished := hall twoIndexes shelf "x" shelved site' (by decide) hrun
  have hkept : ∀ {name text}, (∃ d ∈ twoIndexes, d.out = some name) →
      name ∈ ["ReadMe.md", "index.md", "b.svg"] →
      site'.files.readText (Files.join (shelf.outFolder "x") name) = .ok text → text = "" := by
    rintro name text ⟨d, hd, hname⟩ hthere htext
    have hread := (pages_leaves hrun).read (hspared d hd name hname) (shelved_read name hthere)
    cases htext.symm.trans (readText_of_read_empty hread)
    rfl
  obtain ⟨text, htext, -, hindex⟩ := (hpublished _ List.mem_cons_self "ReadMe.md" rfl).page rfl
  obtain ⟨text', htext', hpage, -⟩ :=
    (hpublished _ (.tail _ List.mem_cons_self) "index.md" rfl).page rfl
  obtain rfl := hkept ⟨_, List.mem_cons_self, rfl⟩ (by simp) htext
  obtain rfl := hkept ⟨_, .tail _ List.mem_cons_self, rfl⟩ (by simp) htext'
  -- both pages are read at one path, but their titles differ
  have hpath : Files.withExtension (Files.join (shelf.distFolder "x") "index.md") "html"
      = Files.join (shelf.distFolder "x") "index.html" := by with_unfolding_all rfl
  rw [hpath, hindex (by decide)] at hpage
  have hsame : pageOf "ReadMe.md" "" = pageOf "index.md" "" :=
    String.toByteArray_inj.mp (Except.ok.inj hpage)
  exact absurd hsame (by with_unfolding_all decide)

end Publish
end Frontispiece
