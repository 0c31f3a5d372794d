import Frontispiece.Proofs.Files.Tree

/-!
# Trees only grow

No operation takes anything away: what is a folder stays one, and what is a file stays a file,
though it may hold something else.  So a path that leads to a file leads to one ever after.  Devices
neither go nor come.

## What is here

* `FileTree.Grows` — a tree with at least the folders and files of another, and with its devices.
* `Grows.leads`, `Grows.isFile`, `Grows.isFolder` — paths stay what they are.
* `grows_of_write`, `grows_createFolders`, `grows_of_copy` — the operations grow a tree.
* `isFile_of_write` — the path of a file that was written leads to it, unless it is a device.

The relation is kept small on purpose: it says nothing of what files hold.  That is enough for all
questions of the form whether a file is still there, and it is kept by every operation, also by one
that fails half way.  What files hold is treated apart, as there it matters which of them were
written.
-/

set_option autoImplicit false

namespace Frontispiece
namespace Files
namespace FileTree

variable {t t' t'' : FileTree} {path : String} {place : List String}

/-- A tree on the same ground with the folders and the devices of another, and with a file wherever
the other has one. -/
structure Grows (t t' : FileTree) : Prop where
  ground : t'.ground = t.ground
  folder : ∀ place, t.find? place = some .folder → t'.find? place = some .folder
  file : ∀ place content, t.find? place = some (.file content) →
    ∃ content', t'.find? place = some (.file content')
  sink : ∀ place, t'.find? place = some .sink ↔ t.find? place = some .sink

theorem Grows.refl (t : FileTree) : t.Grows t :=
  ⟨rfl, fun _ h => h, fun _ content h => ⟨content, h⟩, fun _ => .rfl⟩

theorem Grows.trans (h : t.Grows t') (h' : t'.Grows t'') : t.Grows t'' where
  ground := h'.ground.trans h.ground
  folder place hplace := h'.folder place (h.folder place hplace)
  file place content hplace := by
    obtain ⟨content', hplace'⟩ := h.file place content hplace
    exact h'.file place content' hplace'
  sink place := (h'.sink place).trans (h.sink place)

/-! ## Paths

A path goes through folders, by names and by links.  Folders stay folders in a tree that has grown,
so the path goes the same way and ends at the same place. -/

/-- **In a tree that has grown, a path leads where it led.** -/
theorem Grows.leads (h : t.Grows t') (hleads : t.Leads path place) : t'.Leads path place := by
  obtain ⟨hnamed, hthrough, hgoal⟩ := hleads
  rw [← h.ground] at hthrough hgoal
  exact ⟨hnamed, fun folder hfolder => h.folder folder (hthrough folder hfolder), hgoal⟩

/-- **What is a file stays a file.** -/
theorem Grows.isFile (h : t.Grows t') (hfile : t.isFile path = true) : t'.isFile path = true := by
  obtain ⟨place, content, hleads, hslash, hplace⟩ := isFile_iff.1 hfile
  obtain ⟨content', hplace'⟩ := h.file place content hplace
  exact isFile_iff.2 ⟨place, content', h.leads hleads, hslash, hplace'⟩

theorem Grows.isFolder (h : t.Grows t') (hfolder : t.isFolder path = true) :
    t'.isFolder path = true := by
  obtain ⟨place, hleads, hplace⟩ := isFolder_iff.1 hfolder
  exact isFolder_iff.2 ⟨place, h.leads hleads, h.folder place hplace⟩

/-- What is a device stays one, and nothing becomes one. -/
theorem Grows.isSink_iff (h : t.Grows t') : t'.IsSink path ↔ t.IsSink path := by
  rw [IsSink, IsSink, h.ground]
  exact h.sink _

/-- Writing leaves the same file in both trees. -/
theorem Grows.written_eq (h : t.Grows t') (path : String) (content : ByteArray) :
    t'.written path content = t.written path content := by
  rw [written, written, h.ground]
  simp only [h.isSink_iff]

/-! ## The operations

An operation may put a folder where nothing is, or fill a file where no folder is.  Neither takes a
folder or a file away, and a failure half way leaves what was done until then. -/

/-- A file filled where there is no folder. -/
theorem grows_fill (hplace : t.find? place ≠ some .folder) (content : ByteArray) :
    t.Grows (t.fill place content) where
  ground := ground_fill t place content
  folder other hother := by
    rw [find?_fill hplace, if_neg]
    · exact hother
    · rintro ⟨rfl, -⟩
      exact hplace hother
  file other held hother := by
    rw [find?_fill hplace]
    split
    · exact ⟨content, rfl⟩
    · exact ⟨held, hother⟩
  sink other := by
    rw [find?_fill hplace]
    split
    · next hhere =>
      obtain ⟨rfl, hsink⟩ := hhere
      simp [hsink]
    · exact .rfl

/-- A folder put where nothing is. -/
theorem grows_put_folder (hfree : t.find? place = none) : t.Grows (t.put place .folder) := by
  have hplace : t.find? place ≠ some .folder := by simp [hfree]
  have hother : ∀ {other entry}, t.find? other = some entry →
      (t.put place .folder).find? other = some entry := by
    intro other entry h
    rw [find?_put hplace, if_neg]
    · exact h
    · rintro rfl
      cases hfree.symm.trans h
  refine ⟨rfl, fun _ h => hother h, fun _ content h => ⟨content, hother h⟩, fun other => ?_⟩
  rw [find?_put hplace]
  split
  · next hhere => simp [hhere, hfree]
  · exact .rfl

/-- Writing a file grows the tree. -/
theorem grows_of_write {content : ByteArray} (h : t.write path content = .ok t') :
    t.Grows t' := by
  obtain ⟨place, htarget, rfl⟩ := write_eq h
  exact grows_fill (target_eq_ok_iff.1 htarget).2.2 content

/-- The place of a file that is filled has a file then. -/
theorem find?_fill_of_target (h : t.target path = .ok place) (hkept : ¬t.IsSink path)
    (content : ByteArray) : (t.fill place content).find? place = some (.file content) := by
  obtain ⟨hleads, -, hfolder⟩ := target_eq_ok_iff.1 h
  obtain rfl := hleads.eq_placeOf
  rw [find?_fill hfolder, if_pos ⟨rfl, hkept⟩]

/-- **The path of a file that was written leads to a file.** -/
theorem isFile_of_write {content : ByteArray} (h : t.write path content = .ok t')
    (hkept : ¬t.IsSink path) : t'.isFile path = true := by
  obtain ⟨place, htarget, rfl⟩ := write_eq h
  obtain ⟨hleads, hslash, hfolder⟩ := target_eq_ok_iff.1 htarget
  exact isFile_iff.2 ⟨place, content, (grows_fill hfolder content).leads hleads, hslash,
    find?_fill_of_target htarget hkept content⟩

theorem grows_of_createFolder (h : t.createFolder path = .ok t') : t.Grows t' := by
  obtain ⟨place, hfree, rfl⟩ := createFolder_eq h
  exact grows_put_folder hfree

/-- Making folders grows the tree, also when it fails half way. -/
theorem grows_createFolders (t : FileTree) (path : String) : t.Grows (t.createFolders path).2 :=
  createFoldersWithin_induct .refl .trans grows_of_createFolder _ t path

theorem copy_eq {source : String} (h : t.copy source path = .ok t') :
    ∃ before place content, t.source source = .ok before ∧ t.target path = .ok place ∧
      (t.fill place ByteArray.empty).source source = .ok content ∧
      t' = (t.fill place ByteArray.empty).fill place content := by
  rw [copy] at h
  obtain ⟨before, hbefore, h⟩ := exists_of_bind_ok h
  obtain ⟨place, htarget, h⟩ := exists_of_bind_ok h
  obtain ⟨content, hcontent, h⟩ := exists_of_bind_ok h
  exact ⟨before, place, content, hbefore, htarget, hcontent, (Except.ok.inj h).symm⟩

/-- There is no folder where a file was filled. -/
theorem find?_fill_ne_folder (hplace : t.find? place ≠ some .folder) (content : ByteArray) :
    (t.fill place content).find? place ≠ some .folder := by
  rw [find?_fill hplace]
  split
  · simp
  · exact hplace

/-- Copying a file grows the tree: its target is emptied, then filled. -/
theorem grows_of_copy {source : String} (h : t.copy source path = .ok t') : t.Grows t' := by
  obtain ⟨_, place, content, -, htarget, -, rfl⟩ := copy_eq h
  have hfolder := (target_eq_ok_iff.1 htarget).2.2
  exact (grows_fill hfolder ByteArray.empty).trans
    (grows_fill (find?_fill_ne_folder hfolder ByteArray.empty) content)

end FileTree
end Files
end Frontispiece
