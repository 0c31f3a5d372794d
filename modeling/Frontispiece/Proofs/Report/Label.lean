import Frontispiece.Config.Basic
import Frontispiece.Config.Report
import Frontispiece.Proofs.Text.Offset

/-!
# Labels of reports

The reader of data says by line and column at which byte it stopped, and a report labels one
character.  Between the two the place is an offset.

## What is here

* `lineColumnOffset_byte` — the offset of the line and the column of a byte is that byte.
* `labelIndex_of_covers` — a report on a byte labels its character if the byte is the first of it,
  and the character behind it otherwise, as long as there is one.
* `Config.Fault.label?` — the character that a report on a configuration labels.
* `Config.Fault.label_at_byte` — when that is the character of the byte at which reading stopped.

The last link of the chain is off by one in one case.  The reader stops at a byte; the byte is
turned into a line and a column and back, without loss; and then the number of characters before the
byte is counted, where a byte inside of a character has that character before it.  For a byte that
starts a character this is right.
-/

set_option autoImplicit false

namespace Frontispiece

open Text (byteLength byteLine byteColumn Covers lineStart)

namespace Report

variable {s : List Char} {k i : Nat}

theorem lineColumnOffset_eq (s : List Char) (line column : Nat) :
    lineColumnOffset s line column
      = min ((min (lineStart s (line - 1)) (byteLength s) + (column - 1)) % wordRange s)
          (byteLength s) := by
  rw [lineColumnOffset, lineStart, List.sum_eq_foldl]

/-- The bytes of a text can be counted in its word. -/
theorem byteLength_lt_wordRange (s : List Char) : byteLength s < wordRange s :=
  Nat.lt_of_lt_of_le (Nat.lt_succ_self _) (Nat.le_max_right _ _)

/-- **The offset of the line and the column of a byte is that byte.** -/
theorem lineColumnOffset_byte (h : i ≤ byteLength s) :
    lineColumnOffset s (byteLine s i) (byteColumn s i) = i := by
  have hback := Text.lineStart_add_column h
  have hword := byteLength_lt_wordRange s
  rw [lineColumnOffset_eq, byteLine, byteColumn, Nat.add_sub_cancel_left, Nat.add_sub_cancel,
    Nat.mod_eq_of_lt (by omega)]
  omega

/-- A label stays in the text. -/
theorem labelIndex_lt (h : s ≠ []) (offset : Nat) : labelIndex s offset < s.length := by
  have hpos := List.length_pos_iff.2 h
  rw [labelIndex]
  omega

/-- **The label of a byte** is on its character when the byte is the first of it, and on the next
character otherwise; behind the last character there is none to go to. -/
theorem labelIndex_of_covers (h : Covers s k i) :
    labelIndex s i = if byteLength (s.take k) = i then k else min (k + 1) (s.length - 1) := by
  have hk := h.1
  rw [labelIndex, Text.charIndex_of_covers h]
  split
  · omega
  · rfl

theorem labelIndex_eq_iff (h : Covers s k i) :
    labelIndex s i = k ↔ byteLength (s.take k) = i ∨ k + 1 = s.length := by
  have hk := h.1
  rw [labelIndex_of_covers h]
  split
  · next hfirst => simp [hfirst]
  · next hinside =>
    simp only [hinside, false_or]
    omega

end Report

namespace Config

open Report (lineColumnOffset labelIndex)

/-- The index of the character that a report on a fault labels.  There is no label where the fault has
no place, and none in a text without characters. -/
def Fault.label? (text : String) (fault : Fault) : Option Nat :=
  if text.toList.isEmpty then none
  else (fault.offset? text).map (labelIndex text.toList)

variable {text : String}

/-- A report with a label is drawn for the character of the label. -/
theorem Fault.report_of_label {fault : Fault} {k : Nat} (h : fault.label? text = some k)
    (filename : String) : fault.report filename text
      = Report.report filename text.toList k reportTitle fault.message := by
  rw [label?] at h
  split at h
  · cases h
  · next hsome =>
    obtain ⟨offset, hoffset, rfl⟩ := Option.map_eq_some_iff.1 h
    cases fault with
    | malformedData line column =>
      cases hoffset
      show Report.reportAt filename text.toList _ reportTitle _ = _
      rw [Report.reportAt, if_neg hsome]
    | unreadable path cause => cases hoffset
    | malformedTables => cases hoffset
    | unsupportedFormat path => cases hoffset

theorem Fault.label?_malformedData (h : text ≠ "") (line column : Nat) :
    (malformedData line column).label? text
      = some (labelIndex text.toList (lineColumnOffset text.toList line column)) := by
  have hsome : ¬text.toList.isEmpty := by simpa using h
  rw [label?, if_neg hsome]
  rfl

/-- **The character that a report labels.**  For every text of a configuration:
* each byte belongs to a character;
* a report on the line and the column of a byte labels the character of the byte exactly when the
  byte is the first of its character or the character is the last of the text;
* in all other cases the label is on the character behind it;
* for every line and column the label is inside of a text that is not empty, and the report is
  drawn for it. -/
theorem Fault.label_at_byte (text : String) :
    (∀ i < byteLength text.toList, ∃ k, Covers text.toList k i) ∧
    (∀ i k, Covers text.toList k i →
      ((malformedData (byteLine text.toList i) (byteColumn text.toList i)).label? text = some k
        ↔ byteLength (text.toList.take k) = i ∨ k + 1 = text.toList.length)) ∧
    (∀ i k, Covers text.toList k i → byteLength (text.toList.take k) ≠ i →
      k + 1 < text.toList.length →
      (malformedData (byteLine text.toList i) (byteColumn text.toList i)).label? text
        = some (k + 1)) ∧
    ∀ line column, text ≠ "" → ∃ k < text.toList.length,
      (malformedData line column).label? text = some k ∧
      ∀ filename, (malformedData line column).report filename text
        = Report.report filename text.toList k reportTitle (malformedData line column).message := by
  have hlabel : ∀ {i k}, Covers text.toList k i →
      (malformedData (byteLine text.toList i) (byteColumn text.toList i)).label? text
        = some (labelIndex text.toList i) := by
    intro i k h
    have hne : text ≠ "" := by
      rintro rfl
      exact absurd h.1 (Nat.not_lt_zero _)
    rw [label?_malformedData hne, Report.lineColumnOffset_byte (Nat.le_of_lt h.lt_byteLength)]
  refine ⟨fun i => Text.exists_covers, fun i k h => ?_, fun i k h hinside hmore => ?_,
    fun line column hne => ?_⟩
  · rw [hlabel h, Option.some_inj, Report.labelIndex_eq_iff h]
  · rw [hlabel h, Report.labelIndex_of_covers h, if_neg hinside, Nat.min_eq_left (by omega)]
  · have hk := label?_malformedData hne line column
    exact ⟨_, Report.labelIndex_lt (by simpa using hne) _, hk, report_of_label hk⟩

/-- Of two letters the first takes two bytes.  A report on the last byte labels the last letter, and a
report on the second byte labels it as well. -/
theorem label_at_byte_letters :
    (Covers "éx".toList 1 2 ∧ (Fault.malformedData 1 3).label? "éx" = some 1) ∧
    Covers "éx".toList 0 1 ∧ (Fault.malformedData 1 2).label? "éx" = some 1 := by
  have hlast : Covers "éx".toList 1 2 := by with_unfolding_all decide
  have hinside : Covers "éx".toList 0 1 := by with_unfolding_all decide
  obtain ⟨-, hexact, hbeside, -⟩ := Fault.label_at_byte "éx"
  exact ⟨⟨hlast, (hexact 2 1 hlast).2 (.inl (by with_unfolding_all rfl))⟩, hinside,
    hbeside 1 0 hinside (by with_unfolding_all decide) (by with_unfolding_all decide)⟩

/-- An array with an escape whose four digits end inside of a letter. -/
def brokenEscape : String := "[\"\\u00éx\"]"

/-- The fourth digit would be the first byte of the letter. -/
theorem ofData_brokenEscape : ofData brokenEscape = .error (.malformedData 1 8) := by
  have hplace : (ofData brokenEscape).map (fun _ => ()) = .error (.malformedData 1 8) := by
    decide +kernel
  cases hread : ofData brokenEscape with
  | ok config =>
    rw [hread] at hplace
    cases hplace
  | error fault =>
    rw [hread] at hplace
    cases hplace
    rfl

/-- **A report may label another character** than the one of the byte at which reading stopped. -/
theorem exists_label_beside : ∃ (text : String) (i k : Nat),
    (∃ fault, ofData text = .error fault ∧
      fault = .malformedData (byteLine text.toList i) (byteColumn text.toList i) ∧
      fault.label? text ≠ some k) ∧ Covers text.toList k i :=
  ⟨brokenEscape, 7, 6, ⟨.malformedData 1 8, ofData_brokenEscape, by with_unfolding_all rfl,
    by with_unfolding_all decide⟩, by with_unfolding_all decide⟩

end Config
end Frontispiece
