import Frontispiece.Files.Tree

/-!
# What file operations leave alone

A tree of files is known by what its files hold.  Writing to a path changes what one place holds, and
making folders changes nothing, because a folder is only made where nothing was.

What a path leads to has two sides.  Its way is a matter of names and links, which no operation
changes; the tree only tells whether all on the way are folders, and what is at the end.

## What is here

* `FileTree.content?` — what the file at a place holds, if there is one.
* `FileTree.Leads` — a path that leads to a place, through folders that are all there.
  `locate_eq_ok_iff` and its like say by it what the operations answer.
* `content?_of_write`, `content?_createFolders` — the contents after the operations.
* `overwrite` — contents with several files written one after the other, and `written`, what writing
  to one path adds to them.

The operations answer with one of several faults, and in an order: a folder that is missing on the
way is noticed before what is at the end.  None of the theorems here depends on which fault it is.
So what is stated is when an operation succeeds and with what, and for a fault only that it changes
nothing that matters.
-/

set_option autoImplicit false

namespace Frontispiece

/-- What succeeds does so step by step. -/
theorem exists_of_bind_ok {φ α β : Type} {x : Except φ α} {f : α → Except φ β} {b : β}
    (h : (x >>= f) = .ok b) : ∃ a, x = .ok a ∧ f a = .ok b := by
  cases x with
  | error e => cases h
  | ok a => exact ⟨a, rfl, h⟩

namespace Files

/-- The bytes of an entry, if it is a file. -/
def Entry.content? : Entry → Option ByteArray
  | .file content => some content
  | .folder | .sink => none

namespace FileTree

variable {t t' : FileTree} {path : String} {place : List String}

/-- What the file at a place holds. -/
def content? (t : FileTree) (place : List String) : Option ByteArray :=
  (t.find? place).bind Entry.content?

theorem content?_eq_some_iff {content : ByteArray} :
    t.content? place = some content ↔ t.find? place = some (.file content) := by
  rw [content?]
  rcases t.find? place with _ | _ | held | _ <;> simp [Entry.content?]

/-! ## Where paths lead

Whether an operation finds what it wants is a chain of tests in the program: the way, the folders on
it, and what is at its end.  `Leads` has all of them in one, and the answer of each operation is
read off it. -/

/-- A path leads to a place: its way ends there, and all that it leads through are folders. -/
structure Leads (t : FileTree) (path : String) (place : List String) : Prop where
  named : path ≠ ""
  through : ∀ folder ∈ (t.ground.route path).through, t.find? folder = some .folder
  goal : (t.ground.route path).goal = some place

/-- The place does not depend on the files and folders. -/
theorem Leads.eq_placeOf (h : t.Leads path place) : place = t.ground.placeOf path := by
  rw [Ground.placeOf, h.goal, Option.getD_some]

theorem hasFolder_iff : t.hasFolder place = true ↔ t.find? place = some .folder := by
  rw [hasFolder, beq_iff_eq]

/-- **Where a path leads**, if it leads anywhere. -/
theorem locate_eq_ok_iff {result : Place} : t.locate path = .ok result ↔
    ∃ place, t.Leads path place ∧ result = t.placeAt place (endsInSlash path) := by
  rw [locate]
  split
  · next hempty =>
    have hpath : path = "" := by simpa using hempty
    exact ⟨nofun, fun ⟨_, h, _⟩ => absurd hpath h.named⟩
  · next hnamed =>
    have hpath : path ≠ "" := by simpa using hnamed
    dsimp only
    split
    · next place hblocked =>
      have hmem := List.mem_of_find?_eq_some hblocked
      have hno : ¬t.hasFolder place = true := by simpa using List.find?_some hblocked
      exact ⟨nofun, fun ⟨_, h, _⟩ => absurd (hasFolder_iff.2 (h.through place hmem)) hno⟩
    · next hclear =>
      have hthrough : ∀ folder ∈ (t.ground.route path).through, t.find? folder = some .folder := by
        intro folder hfolder
        have hyes := List.find?_eq_none.1 hclear folder hfolder
        exact hasFolder_iff.1 (by simpa using hyes)
      cases hgoal : (t.ground.route path).goal with
      | none => exact ⟨nofun, fun ⟨_, h, _⟩ => by cases hgoal.symm.trans h.goal⟩
      | some place =>
        refine ⟨fun h => ⟨place, ⟨hpath, hthrough, hgoal⟩, (Except.ok.inj h).symm⟩, ?_⟩
        rintro ⟨other, h, rfl⟩
        cases hgoal.symm.trans h.goal
        rfl

/-- What an operation answers goes by the place that its path leads to. -/
theorem bind_locate_eq_ok_iff {α : Type} {f : Place → Except Fault α} {a : α} :
    (t.locate path >>= f) = .ok a ↔
      ∃ place, t.Leads path place ∧ f (t.placeAt place (endsInSlash path)) = .ok a := by
  constructor
  · intro h
    obtain ⟨result, hlocate, h⟩ := exists_of_bind_ok h
    obtain ⟨place, hleads, rfl⟩ := locate_eq_ok_iff.1 hlocate
    exact ⟨place, hleads, h⟩
  · rintro ⟨place, hleads, h⟩
    rw [locate_eq_ok_iff.2 ⟨place, hleads, rfl⟩]
    exact h

/-- **What can be written to**: a path that leads to a place where no folder is. -/
theorem target_eq_ok_iff : t.target path = .ok place ↔
    t.Leads path place ∧ endsInSlash path = false ∧ t.find? place ≠ some .folder := by
  have hplace : (t.Leads path place ∧ endsInSlash path = false ∧ t.find? place ≠ some .folder) ↔
      ∃ other, t.Leads path other ∧
        (other = place ∧ endsInSlash path = false ∧ t.find? other ≠ some .folder) :=
    ⟨fun ⟨hleads, hend⟩ => ⟨place, hleads, rfl, hend⟩,
      fun ⟨_, hleads, hsame, hend⟩ => hsame ▸ ⟨hleads, hend⟩⟩
  rw [target, bind_locate_eq_ok_iff, hplace]
  refine exists_congr fun other => and_congr_right fun _ => ?_
  rw [placeAt]
  rcases t.find? other with _ | _ | held | _ <;> cases endsInSlash path <;> simp

/-- **What can be read**: the content of a file, and of a device nothing. -/
theorem read_eq_ok_iff {content : ByteArray} : t.read path = .ok content ↔
    ∃ place, t.Leads path place ∧ endsInSlash path = false ∧
      (t.find? place = some (.file content) ∨
        t.find? place = some .sink ∧ content = ByteArray.empty) := by
  rw [read, bind_locate_eq_ok_iff]
  refine exists_congr fun place => and_congr_right fun _ => ?_
  rw [placeAt]
  rcases hfound : t.find? place with _ | _ | held | _ <;> cases endsInSlash path <;>
    simp [eq_comm]

/-- A text that was written as bytes is read as a text. -/
theorem readText_of_read {text : String} (h : t.read path = .ok text.toUTF8) :
    t.readText path = .ok text := by
  have htext : String.fromUTF8? text.toUTF8 = some text := dif_pos text.isValidUTF8
  simp only [readText, h, bind, Except.bind, htext]

/-- What can be copied is the content of a file. -/
theorem source_eq_ok_iff {content : ByteArray} : t.source path = .ok content ↔
    ∃ place, t.Leads path place ∧ endsInSlash path = false ∧
      t.find? place = some (.file content) := by
  rw [source, bind_locate_eq_ok_iff]
  refine exists_congr fun place => and_congr_right fun _ => ?_
  rw [placeAt]
  rcases hfound : t.find? place with _ | _ | held | _ <;> cases endsInSlash path <;> simp

/-- A path is that of a file exactly if it leads to one and does not end as a folder does. -/
theorem isFile_iff : t.isFile path = true ↔
    ∃ place content, t.Leads path place ∧ endsInSlash path = false ∧
      t.find? place = some (.file content) := by
  rw [isFile]
  constructor
  · intro h
    split at h
    · next place content slash hlocate =>
      obtain ⟨found, hleads, hplace⟩ := locate_eq_ok_iff.1 hlocate
      rw [placeAt] at hplace
      split at hplace <;> cases hplace
      next hfile => exact ⟨place, content, hleads, by simpa using h, hfile⟩
    · cases h
  · rintro ⟨place, content, hleads, hslash, hfile⟩
    rw [locate_eq_ok_iff.2 ⟨place, hleads, rfl⟩, placeAt, hfile, hslash]
    rfl

/-- A path is that of a folder exactly if it leads to one. -/
theorem isFolder_iff : t.isFolder path = true ↔
    ∃ place, t.Leads path place ∧ t.find? place = some .folder := by
  rw [isFolder]
  constructor
  · intro h
    split at h
    · next place hlocate =>
      obtain ⟨found, hleads, hplace⟩ := locate_eq_ok_iff.1 hlocate
      rw [placeAt] at hplace
      split at hplace <;> cases hplace
      next hfolder => exact ⟨_, hleads, hfolder⟩
    · cases h
  · rintro ⟨place, hleads, hfolder⟩
    rw [locate_eq_ok_iff.2 ⟨place, hleads, rfl⟩, placeAt, hfolder]

/-! ## Entries put

All operations end in putting an entry at a place.  What is at other places stays, and a place that
is a device takes nothing in. -/

/-- The folders around the current one stay. -/
theorem isAround_of_find?_ne (h : t.find? place ≠ some .folder) :
    t.ground.isAround place = false := by
  rw [find?] at h
  split at h
  · exact absurd rfl h
  · next hnot => simpa using hnot

/-- Only the place that is put has another entry. -/
theorem find?_put (hplace : t.find? place ≠ some .folder) (entry : Entry) (other : List String) :
    (t.put place entry).find? other = if other = place then some entry else t.find? other := by
  have hground : (t.put place entry).ground = t.ground := rfl
  have hnot := isAround_of_find?_ne hplace
  rw [find?, find?, hground]
  by_cases heq : other = place
  · subst heq
    have hnone : (t.entries.filter fun e => e.1 != other).find? (fun e => e.1 == other) = none := by
      simp
    simp [hnot, put, List.find?_append, hnone]
  · have hkept : (t.entries.filter fun e => e.1 != place).find? (fun e => e.1 == other)
        = t.entries.find? fun e => e.1 == other := by
      rw [List.find?_filter]
      congr 1
      funext e
      by_cases he : e.1 = other
      · simp [he, heq]
      · simp [he]
    have hlast : ¬place = other := fun h => heq h.symm
    simp [put, List.find?_append, hkept, heq, hlast]

/-- A place that is filled has a file, unless it is that of a device, and all others are as they
were. -/
theorem find?_fill (hplace : t.find? place ≠ some .folder) (content : ByteArray)
    (other : List String) :
    (t.fill place content).find? other
      = if other = place ∧ t.find? place ≠ some .sink then some (.file content)
        else t.find? other := by
  rw [fill]
  split
  · next hsink => simp [hsink]
  · next hsink =>
    rw [find?_put hplace]
    simp [hsink]

theorem ground_fill (t : FileTree) (place : List String) (content : ByteArray) :
    (t.fill place content).ground = t.ground := by
  rw [fill]
  split <;> rfl

/-- A file that is filled holds what it is given, and all other files what they held. -/
theorem content?_fill (hplace : t.find? place ≠ some .folder) (content : ByteArray)
    (other : List String) :
    (t.fill place content).content? other
      = if other = place ∧ t.find? place ≠ some .sink then some content else t.content? other := by
  rw [content?, find?_fill hplace]
  split <;> rfl

/-- A folder that is put where nothing is changes no file. -/
theorem content?_put_folder (hfree : t.find? place = none) (other : List String) :
    (t.put place .folder).content? other = t.content? other := by
  rw [content?, find?_put (by simp [hfree])]
  split
  · next hhere => rw [content?, hhere, hfree]; rfl
  · rfl

/-! ## The operations

The contents of all files after an operation, in terms of those before it.  Making folders may fail
half way, and what has been made by then stays; but a folder holds nothing. -/

/-- Whether a path leads to a device. -/
def IsSink (t : FileTree) (path : String) : Prop :=
  t.find? (t.ground.placeOf path) = some .sink

instance : Decidable (t.IsSink path) := inferInstanceAs (Decidable (_ = _))

theorem write_eq {content : ByteArray} (h : t.write path content = .ok t') :
    ∃ place, t.target path = .ok place ∧ t' = t.fill place content := by
  rw [write] at h
  obtain ⟨place, htarget, h⟩ := exists_of_bind_ok h
  exact ⟨place, htarget, (Except.ok.inj h).symm⟩

/-- **Writing a file changes what its place holds, and nothing else.**  A device holds nothing. -/
theorem content?_of_write {content : ByteArray} (h : t.write path content = .ok t')
    (other : List String) :
    t'.content? other
      = if other = t.ground.placeOf path ∧ ¬t.IsSink path then some content
        else t.content? other := by
  obtain ⟨place, htarget, rfl⟩ := write_eq h
  obtain ⟨hleads, -, hfolder⟩ := target_eq_ok_iff.1 htarget
  obtain rfl := hleads.eq_placeOf
  exact content?_fill hfolder content other

/-- A folder is made where nothing is. -/
theorem createFolder_eq (h : t.createFolder path = .ok t') :
    ∃ place, t.find? place = none ∧ t' = t.put place .folder := by
  rw [createFolder] at h
  split at h
  · cases h
  · obtain ⟨place, -, h⟩ := bind_locate_eq_ok_iff.1 h
    rw [placeAt] at h
    split at h
    · next hfree hplace =>
      split at hplace <;> cases hplace
      next hnone => exact ⟨place, hnone, (Except.ok.inj h).symm⟩
    · cases h

theorem content?_of_createFolder (h : t.createFolder path = .ok t') (other : List String) :
    t'.content? other = t.content? other := by
  obtain ⟨place, hfree, rfl⟩ := createFolder_eq h
  exact content?_put_folder hfree other

/-- What every folder that is made keeps, making several keeps. -/
theorem createFoldersWithin_induct {R : FileTree → FileTree → Prop} (hrefl : ∀ t, R t t)
    (htrans : ∀ {t t' t''}, R t t' → R t' t'' → R t t'')
    (hone : ∀ {t t' path}, createFolder t path = .ok t' → R t t') :
    ∀ (fuel : Nat) (t : FileTree) (path : String), R t (createFoldersWithin fuel t path).2
  | 0, t, _ => hrefl t
  | fuel + 1, t, path => by
    rw [createFoldersWithin]
    dsimp only
    split
    · exact hrefl t
    split
    · next hmade => exact hone hmade
    · split
      · exact hrefl t
      · next parent _ =>
        have ih := createFoldersWithin_induct hrefl htrans hone fuel t parent
        split
        · next heq =>
          rw [heq] at ih
          exact ih
        · next heq =>
          rw [heq] at ih
          split
          · next hmade => exact htrans ih (hone hmade)
          · exact ih
    · exact hrefl t

/-- **Making folders changes no file**, also when it fails half way. -/
theorem content?_createFolders (t : FileTree) (path : String) (other : List String) :
    (t.createFolders path).2.content? other = t.content? other :=
  createFoldersWithin_induct (R := fun t t' => t'.content? other = t.content? other)
    (fun _ => rfl) (fun h h' => h'.trans h) (fun h => content?_of_createFolder h other) _ t path

/-! ## Several files

A run of operations leaves contents that are known from the files written, one after the other.  The
later of two at one place counts. -/

/-- Contents with one more file written. -/
def overwriteOne (contents : List String → Option ByteArray) (file : List String × ByteArray) :
    List String → Option ByteArray :=
  fun place => if place = file.1 then some file.2 else contents place

/-- Contents with files written one after the other. -/
def overwrite (contents : List String → Option ByteArray) (files : List (List String × ByteArray)) :
    List String → Option ByteArray :=
  files.foldl overwriteOne contents

theorem overwrite_append (contents : List String → Option ByteArray)
    (files others : List (List String × ByteArray)) :
    overwrite contents (files ++ others) = overwrite (overwrite contents files) others :=
  List.foldl_append

/-- The file that writing to a path leaves.  There is none at a device. -/
def written (t : FileTree) (path : String) (content : ByteArray) :
    List (List String × ByteArray) :=
  if t.IsSink path then [] else [(t.ground.placeOf path, content)]

theorem contents_of_write {content : ByteArray} (h : t.write path content = .ok t') :
    t'.content? = overwrite t.content? (t.written path content) := by
  funext other
  rw [content?_of_write h, written]
  by_cases hsink : t.IsSink path
  · simp [hsink, overwrite]
  · simp [hsink, overwrite, overwriteOne]

end FileTree
end Files
end Frontispiece
