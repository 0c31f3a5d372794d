import Frontispiece.Proofs.Files.Part

/-!
# Files that stay

What is at a path is found again as long as nothing is written at the path's place.  And a path that
a file can be written at keeps being one while only files are written.

## What is here

* `Leaves` — a tree that grows from another and changes what is at the given places only.  A file at
  another place is read as before (`Leaves.read`).
* `leaves_of_write`, `leaves_of_copy` — the operations leave all places but one alone, and what is
  read there by then, if it is no device.
* `Fills` — a tree that grows from another by files only.  What `IsOpen` for writing stays so.

Both relations are indexed by the places that may change or are left open, and both compose.  So
what a run of operations leaves alone is known from what each of them leaves alone.  A place is used
and not a path, because different paths can lead to one place: a file that is written by one name
may be read by another.
-/

set_option autoImplicit false

namespace Frontispiece
namespace Files
namespace FileTree

variable {t t' t'' : FileTree} {path : String}

/-! ## Places that are left alone

Of a later tree it is enough to know at which places it differs.  Reading is only affected at these,
also when the path that is read has another name than the one that was written. -/

/-- A path from which something is read leads to a file with this content, or to a device. -/
theorem content?_of_read {content : ByteArray} (h : t.read path = .ok content)
    (hkept : ¬t.IsSink path) : t.content? (t.ground.placeOf path) = some content := by
  obtain ⟨place, hleads, -, hfile | ⟨hsink, -⟩⟩ := read_eq_ok_iff.1 h
  · exact content?_eq_some_iff.2 (hleads.eq_placeOf ▸ hfile)
  · rw [hleads.eq_placeOf] at hsink
    exact absurd hsink hkept

/-- In a tree that has grown, a path to a file reads what the file's place holds by then. -/
theorem Grows.read (hgrows : t.Grows t') {content content' : ByteArray}
    (h : t.read path = .ok content)
    (hheld : t'.content? (t.ground.placeOf path) = some content') :
    t'.read path = .ok content' := by
  obtain ⟨place, hleads, hslash, -⟩ := read_eq_ok_iff.1 h
  rw [← hleads.eq_placeOf, content?_eq_some_iff] at hheld
  exact read_eq_ok_iff.2 ⟨place, hgrows.leads hleads, hslash, .inl hheld⟩

/-- A tree that grows from another and changes what is at the given places only. -/
structure Leaves (places : List (List String)) (t t' : FileTree) : Prop where
  grows : t.Grows t'
  content : ∀ place, place ∉ places → t'.content? place = t.content? place

variable {places places' : List (List String)}

theorem Leaves.refl (t : FileTree) : t.Leaves places t :=
  ⟨.refl t, fun _ _ => rfl⟩

theorem Leaves.mono (h : Leaves places t t') (hsubset : ∀ place ∈ places, place ∈ places') :
    Leaves places' t t' :=
  ⟨h.grows, fun place hplace => h.content place fun hmem => hplace (hsubset place hmem)⟩

theorem Leaves.trans (h : Leaves places t t') (h' : Leaves places t' t'') :
    Leaves places t t'' :=
  ⟨h.grows.trans h'.grows, fun place hplace =>
    (h'.content place hplace).trans (h.content place hplace)⟩

/-- **What is at none of the places is read as before.** -/
theorem Leaves.read (h : Leaves places t t') (hpath : t.ground.placeOf path ∉ places)
    {content : ByteArray} (hread : t.read path = .ok content) : t'.read path = .ok content := by
  obtain ⟨place, hleads, hslash, hfile | ⟨hsink, rfl⟩⟩ := read_eq_ok_iff.1 hread
  · have hheld := h.content _ hpath
    rw [← hleads.eq_placeOf, content?_eq_some_iff.2 hfile, content?_eq_some_iff] at hheld
    exact read_eq_ok_iff.2 ⟨place, h.grows.leads hleads, hslash, .inl hheld⟩
  · exact read_eq_ok_iff.2 ⟨place, h.grows.leads hleads, hslash, .inr ⟨(h.grows.sink _).2 hsink, rfl⟩⟩

theorem Leaves.readText (h : Leaves places t t') (hpath : t.ground.placeOf path ∉ places)
    {text : String} (hread : t.readText path = .ok text) : t'.readText path = .ok text := by
  rw [FileTree.readText] at hread ⊢
  obtain ⟨content, hcontent, htext⟩ := exists_of_bind_ok hread
  rw [h.read hpath hcontent]
  exact htext

theorem leaves_createFolders (t : FileTree) (path : String) :
    t.Leaves [] (t.createFolders path).2 :=
  ⟨grows_createFolders t path, fun place _ => content?_createFolders t path place⟩

/-- Writing a file leaves all others alone, and the file is read as it was written. -/
theorem leaves_of_write {content : ByteArray} (h : t.write path content = .ok t') :
    Leaves [t.ground.placeOf path] t t' ∧ (¬t.IsSink path → t'.read path = .ok content) := by
  refine ⟨⟨grows_of_write h, fun place hplace => ?_⟩, fun hkept => ?_⟩
  · rw [content?_of_write h, if_neg]
    rintro ⟨rfl, -⟩
    exact hplace List.mem_cons_self
  · obtain ⟨place, htarget, rfl⟩ := write_eq h
    obtain ⟨hleads, hslash, hfolder⟩ := target_eq_ok_iff.1 htarget
    exact read_eq_ok_iff.2 ⟨place, (grows_fill hfolder content).leads hleads, hslash,
      .inl (find?_fill_of_target htarget hkept content)⟩

/-- Copying a file leaves all others alone, and the copy of a file from another place is read as
the file. -/
theorem leaves_of_copy {source : String} (h : t.copy source path = .ok t') :
    Leaves [t.ground.placeOf path] t t' ∧
      (t.ground.placeOf path ≠ t.ground.placeOf source → ¬t.IsSink path →
        ∃ content, t.read source = .ok content ∧ t'.read path = .ok content) := by
  have hgrows := grows_of_copy h
  obtain ⟨content, place, content', hsource, htarget, hagain, rfl⟩ := copy_eq h
  obtain ⟨hleads, hslash, hfolder⟩ := target_eq_ok_iff.1 htarget
  have hfilled := find?_fill_ne_folder hfolder ByteArray.empty
  obtain rfl := hleads.eq_placeOf
  refine ⟨⟨hgrows, fun other hother => ?_⟩, fun hapart hkept => ⟨content, ?_, ?_⟩⟩
  · have hne : other ≠ t.ground.placeOf path := by simpa using hother
    rw [content?_fill hfilled, if_neg fun h => hne h.1, content?_fill hfolder,
      if_neg fun h => hne h.1]
  · obtain ⟨found, hfound, hslash', hfile⟩ := source_eq_ok_iff.1 hsource
    exact read_eq_ok_iff.2 ⟨found, hfound, hslash', .inl hfile⟩
  · -- the source is read again once the target is emptied, which does not touch it
    obtain ⟨found, hfound, -, hfile⟩ := source_eq_ok_iff.1 hsource
    obtain ⟨found', hfound', -, hfile'⟩ := source_eq_ok_iff.1 hagain
    have hemptied := grows_fill hfolder ByteArray.empty
    obtain rfl : found' = found := by
      rw [hfound.eq_placeOf, hfound'.eq_placeOf, hemptied.ground]
    rw [find?_fill hfolder, if_neg fun h => hapart (h.1.symm.trans hfound.eq_placeOf), hfile]
      at hfile'
    cases hfile'
    have hsink : ¬(t.fill (t.ground.placeOf path) ByteArray.empty).find? (t.ground.placeOf path)
        = some .sink := fun h => hkept ((hemptied.sink _).1 h)
    refine read_eq_ok_iff.2 ⟨_, hgrows.leads hleads, hslash, .inl ?_⟩
    rw [find?_fill hfilled, if_pos ⟨rfl, hsink⟩]

/-! ## Trees that only get files

A folder in the place of a file is what stands in the way of writing it.  When only files are added,
none can come there; and an operation that makes folders which are there already adds nothing at
all. -/

/-- A tree that grows from another by files only. -/
structure Fills (t t' : FileTree) : Prop where
  grows : t.Grows t'
  folder : ∀ place, t'.find? place = some .folder → t.find? place = some .folder

theorem Fills.refl (t : FileTree) : t.Fills t :=
  ⟨.refl t, fun _ h => h⟩

theorem Fills.trans (h : t.Fills t') (h' : t'.Fills t'') : t.Fills t'' :=
  ⟨h.grows.trans h'.grows, fun place hplace => h.folder place (h'.folder place hplace)⟩

/-- A file filled where there is no folder. -/
theorem fills_fill {place : List String} (hplace : t.find? place ≠ some .folder)
    (content : ByteArray) : t.Fills (t.fill place content) := by
  refine ⟨grows_fill hplace content, fun other hother => ?_⟩
  rw [find?_fill hplace] at hother
  split at hother
  · cases hother
  · exact hother

/-- **The place at which a file is written stays what it is while only files are added.** -/
theorem Fills.target (hfills : t.Fills t') {place : List String} (h : t.target path = .ok place) :
    t'.target path = .ok place := by
  obtain ⟨hleads, hslash, hfolder⟩ := target_eq_ok_iff.1 h
  exact target_eq_ok_iff.2 ⟨hfills.grows.leads hleads, hslash,
    fun hthere => hfolder (hfills.folder place hthere)⟩

/-- A file can be written at a path: its folder is there, and no folder is in its place. -/
def IsOpen (t : FileTree) (path : String) : Prop :=
  ((parent? path).all fun parent => t.isFolder parent) = true ∧ (t.target path).isOk = true

theorem IsOpen.target (h : t.IsOpen path) : ∃ place, t.target path = .ok place := by
  obtain ⟨-, htarget⟩ := h
  cases hplace : t.target path with
  | error fault =>
    rw [hplace] at htarget
    cases htarget
  | ok place => exact ⟨place, rfl⟩

theorem Fills.isOpen (hfills : t.Fills t') (h : t.IsOpen path) : t'.IsOpen path := by
  refine ⟨?_, ?_⟩
  · have hfolder := h.1
    rw [Option.all_eq_true] at hfolder ⊢
    exact fun parent hparent => hfills.grows.isFolder (hfolder parent hparent)
  · obtain ⟨place, hplace⟩ := h.target
    rw [hfills.target hplace]
    rfl

/-- A file is copied to a path that a file can be written at, be it its own. -/
theorem IsOpen.copy (h : t.IsOpen path) {source : String} (hsource : t.isFile source = true) :
    ∃ t', t.copy source path = .ok t' ∧ t.Fills t' := by
  obtain ⟨place, htarget⟩ := h.target
  have hfolder := (target_eq_ok_iff.1 htarget).2.2
  have hemptied := fills_fill hfolder ByteArray.empty
  have hcopied : ∀ {t : FileTree}, t.isFile source = true → ∃ content, t.source source = .ok content := by
    intro t hfile
    obtain ⟨found, content, hleads, hslash, hplace⟩ := isFile_iff.1 hfile
    exact ⟨content, source_eq_ok_iff.2 ⟨found, hleads, hslash, hplace⟩⟩
  obtain ⟨before, hbefore⟩ := hcopied hsource
  obtain ⟨content, hcontent⟩ := hcopied (hemptied.grows.isFile hsource)
  refine ⟨_, ?_, hemptied.trans (fills_fill (find?_fill_ne_folder hfolder ByteArray.empty) content)⟩
  simp only [FileTree.copy, hbefore, htarget, hcontent, bind, Except.bind]

/-- Making a folder that is there changes nothing. -/
theorem createFolders_of_isFolder (h : t.isFolder path = true) :
    t.createFolders path = (.ok (), t) := by
  obtain ⟨place, hleads, hfolder⟩ := isFolder_iff.1 h
  have hthere : t.createFolder path = .error .alreadyThere := by
    rw [createFolder, locate_eq_ok_iff.2 ⟨place, hleads, rfl⟩, placeAt, hfolder]
    split <;> rfl
  rw [createFolders, createFoldersWithin]
  simp only [h, if_true]
  split
  · rfl
  · rw [hthere]

end FileTree
end Files
end Frontispiece
