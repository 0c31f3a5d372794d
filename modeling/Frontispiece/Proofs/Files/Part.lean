import Frontispiece.Proofs.Files.Growth

/-!
# A part of a tree

What was read from a part of a tree is read from all of it, too.  So to say that something reads
only the files of some folders, one lets it read from a tree in which all others are missing.

## What is here

* `FileTree.Extends` — a tree that holds all that another holds; what is read from the other is read
  from it.
* `FileTree.only` — a tree without the files at other places than the given ones.
* `extends_only` — a tree that has grown extends that part of it whose files are as they were.

The relation is between trees on the same ground, that is, with the same links and the same current
folder.  So a path has the same way in both, and what it finds in the smaller tree it finds in the
larger one.  The converse fails, since the larger tree may have a file where the smaller one has
none.
-/

set_option autoImplicit false

namespace Frontispiece
namespace Files
namespace FileTree

variable {t t' : FileTree} {path : String} {place : List String}

/-- A tree that holds all that another on the same ground holds. -/
structure Extends (t t' : FileTree) : Prop where
  ground : t'.ground = t.ground
  entry : ∀ place entry, t.find? place = some entry → t'.find? place = some entry

theorem Extends.leads (h : t.Extends t') (hleads : t.Leads path place) : t'.Leads path place := by
  obtain ⟨hnamed, hthrough, hgoal⟩ := hleads
  rw [← h.ground] at hthrough hgoal
  exact ⟨hnamed, fun folder hfolder => h.entry folder _ (hthrough folder hfolder), hgoal⟩

/-- **What is read from a part of a tree is read from all of it.** -/
theorem Extends.read (hext : t.Extends t') {content : ByteArray} (h : t.read path = .ok content) :
    t'.read path = .ok content := by
  obtain ⟨place, hleads, hslash, hheld⟩ := read_eq_ok_iff.1 h
  refine read_eq_ok_iff.2 ⟨place, hext.leads hleads, hslash, ?_⟩
  exact hheld.imp (hext.entry place _) (And.imp_left (hext.entry place _))

theorem Extends.readText (hext : t.Extends t') {text : String} (h : t.readText path = .ok text) :
    t'.readText path = .ok text := by
  rw [FileTree.readText] at h ⊢
  obtain ⟨content, hread, h⟩ := exists_of_bind_ok h
  rw [hext.read hread]
  exact h

/-- A tree with all its folders and devices, but only the files at some places. -/
def only (keep : List String → Bool) (t : FileTree) : FileTree :=
  { t with entries := t.entries.filter fun entry => keep entry.1 || (t.content? entry.1).isNone }

/-- What is left is what it was, and if it is a file, it is at one of the places. -/
theorem find?_of_only {keep : List String → Bool} {entry : Entry}
    (h : (t.only keep).find? place = some entry) :
    t.find? place = some entry ∧ (keep place = true ∨ t.content? place = none) := by
  have hground : (t.only keep).ground = t.ground := rfl
  by_cases haround : t.ground.isAround place = true
  · have hfolder : t.find? place = some .folder := by rw [find?, if_pos haround]
    rw [find?, hground, if_pos haround] at h
    cases h
    exact ⟨hfolder, .inr (by rw [content?, hfolder]; rfl)⟩
  have hentries : ∀ t : FileTree, t.ground.isAround place ≠ true →
      t.find? place = (t.entries.find? fun entry => entry.1 == place).map Prod.snd := by
    intro t hnot
    rw [find?, if_neg hnot]
  rw [hentries (t.only keep) haround, only, List.find?_filter] at h
  by_cases hkept : keep place = true ∨ t.content? place = none
  · refine ⟨?_, hkept⟩
    rw [hentries t haround, ← h]
    congr 2
    funext e
    by_cases he : e.1 = place
    · simp [he, hkept]
    · simp [he]
  · -- an entry that is left out is found nowhere
    obtain ⟨found, hfound, -⟩ := Option.map_eq_some_iff.mp h
    have hboth := List.find?_some hfound
    simp only [Bool.or_eq_true, Option.isNone_iff_eq_none, beq_iff_eq, decide_eq_true_eq] at hboth
    obtain ⟨hleft, rfl⟩ := hboth
    exact absurd hleft hkept

/-- **A tree that has grown extends the part of it whose files are as they were.** -/
theorem extends_only {keep : List String → Bool} (hgrows : t.Grows t')
    (hsame : ∀ place, keep place = true → t'.content? place = t.content? place) :
    (t.only keep).Extends t' := by
  refine ⟨hgrows.ground, fun place entry hentry => ?_⟩
  obtain ⟨hfound, hkept⟩ := find?_of_only hentry
  cases entry with
  | folder => exact hgrows.folder place hfound
  | sink => exact (hgrows.sink place).2 hfound
  | file content =>
    have hcontent := content?_eq_some_iff.2 hfound
    rcases hkept with hkeep | hnone
    · exact content?_eq_some_iff.1 ((hsame place hkeep).trans hcontent)
    · cases hcontent.symm.trans hnone

end FileTree
end Files
end Frontispiece
