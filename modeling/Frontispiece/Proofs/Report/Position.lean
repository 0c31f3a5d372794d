import Frontispiece.Proofs.Report.Label
import Mathlib.Data.Prod.Lex

/-!
# Lines, columns and offsets

A line starts where the lines before it end, each of them with its line feed.  A column counts bytes
from there, and what lies beyond the text is brought back to its end.  So pairs of a line and a column
are in the order of their offsets, as long as no column runs over the end of its line.

The sum of the two is a word of the machine.  Of a column that is far beyond its line it may be too
large for that and wrap around, and then it may lead anywhere in the text.  No column within its line
does so, and neither does one of at most `2 ^ 63` in a text of less than `2 ^ 63` bytes.

## What is here

* `fedLines` — the lines of a text, each with its line feed; joined they are the text.
* `lineOffset` — the offset at which a line starts: the lengths of the lines before it.
* `Fits` — a line and a column whose sum does not wrap around.
* `lineColumnOffset_eq_lineOffset`, `Fits.lineColumnOffset_eq` — the offset of a line and a column, told
  by `lineOffset`, with and without wrapping.
* `lineColumnOffset_positions` — **the offset of a line and a column undoes taking the line and the
  column of a byte, stays in the text, and grows with the line and the column within lines.**

Everything is reduced to `lineOffset`, the sum of the lengths of the lines before.  It grows with
the line, and consecutive values differ by the length of a line, which is all that is needed to
compare positions.  The columns are where it becomes delicate: the program does not compare a column
with the length of its line, so a column may lead into the next lines, and a large one past the
range of words.
-/

set_option autoImplicit false

namespace Frontispiece

open Text (byteLength byteLine byteColumn lineStart)

namespace Text

variable {s : List Char} {n : Nat}

/-! ## Lines with their feeds

The program splits a text at its line feeds and adds up the pieces, each with one byte more for its
feed.  `fedLines` has the feed in the line, so that the bytes add up without a correction, but for
the end of the text. -/

/-- The lines of a text, each with its line feed; the last one may have none, and is not empty. -/
def fedLines : List Char → List (List Char)
  | [] => []
  | c :: rest =>
    if c = '\n' then [c] :: fedLines rest
    else
      match fedLines rest with
      | [] => [[c]]
      | line :: lines => (c :: line) :: lines

theorem flatten_fedLines (s : List Char) : (fedLines s).flatten = s := by
  induction s with
  | nil => rfl
  | cons c s ih =>
    rw [fedLines]
    split
    · rw [List.flatten_cons, ih, List.singleton_append]
    · split
      · next hs =>
        rw [hs] at ih
        rw [← ih]
        rfl
      · next hs =>
        rw [hs] at ih
        rw [List.flatten_cons, List.cons_append, ← List.flatten_cons, ih]

theorem byteLength_append (s t : List Char) :
    byteLength (s ++ t) = byteLength s + byteLength t := by
  rw [← length_bytes, bytes, List.flatMap_append, List.length_append, ← bytes, ← bytes,
    length_bytes, length_bytes]

theorem byteLength_flatten (lines : List (List Char)) :
    byteLength lines.flatten = (lines.map byteLength).sum := by
  induction lines with
  | nil => rfl
  | cons line lines ih =>
    rw [List.flatten_cons, byteLength_append, ih, List.map_cons, List.sum_cons]

/-- The offset at which the line after `n` lines starts; after the last line it is the length of the
text. -/
def lineOffset (s : List Char) (n : Nat) : Nat :=
  (((fedLines s).take n).map byteLength).sum

/-- The number of bytes of a line, its line feed included; lines are counted from one, and a line that
is not there has none. -/
def lineSize (s : List Char) : Nat → Nat
  | 0 => 0
  | n + 1 => byteLength ((fedLines s)[n]?.getD [])

theorem lineOffset_zero (s : List Char) : lineOffset s 0 = 0 := by
  rw [lineOffset, List.take_zero, List.map_nil, List.sum_nil]

/-- A line ends where the next one starts. -/
theorem lineOffset_succ (s : List Char) (n : Nat) :
    lineOffset s (n + 1) = lineOffset s n + lineSize s (n + 1) := by
  rw [lineOffset, List.take_add_one, List.map_append, List.sum_append, ← lineOffset, lineSize]
  cases (fedLines s)[n]? with
  | none => rfl
  | some line => rw [Option.toList_some, List.map_singleton, List.sum_singleton, Option.getD_some]

theorem lineOffset_mono (s : List Char) : Monotone (lineOffset s) :=
  monotone_nat_of_le_succ fun n => by
    rw [lineOffset_succ]
    exact Nat.le_add_right _ _

/-- Behind the last line is the end of the text. -/
theorem lineOffset_of_length_le (h : (fedLines s).length ≤ n) :
    lineOffset s n = byteLength s := by
  rw [lineOffset, List.take_of_length_le h, ← byteLength_flatten, flatten_fedLines]

/-- Behind a line feed the lines are those of the rest, one later. -/
theorem lineOffset_feed (s : List Char) (n : Nat) :
    lineOffset ('\n' :: s) (n + 1) = 1 + lineOffset s n := by
  have hsize : byteLength ['\n'] = 1 := by decide
  rw [lineOffset, fedLines, if_pos rfl, List.take_succ_cons, List.map_cons, List.sum_cons, hsize,
    ← lineOffset]

/-- Any other character belongs to the first line of the rest. -/
theorem lineOffset_cons {c : Char} (h : c ≠ '\n') (s : List Char) (n : Nat) :
    lineOffset (c :: s) (n + 1) = c.utf8Size + lineOffset s (n + 1) := by
  rw [lineOffset, lineOffset, fedLines, if_neg h]
  cases fedLines s with
  | nil => simp
  | cons line lines =>
    simp only [List.take_succ_cons, List.map_cons, List.sum_cons, byteLength_cons]
    omega

/-- **Where lines start.**  Each piece between line feeds counts with a feed after it, and the last
piece has none, which only shows behind the end of the text. -/
theorem lineOffset_eq : ∀ (s : List Char) (n : Nat),
    lineOffset s n = min (lineStart s n) (byteLength s)
  | [], n => by simp [lineOffset, fedLines]
  | c :: s, 0 => by rw [lineOffset_zero, lineStart_zero, Nat.zero_min]
  | c :: s, n + 1 => by
    rw [byteLength_cons]
    by_cases hc : c = '\n'
    · subst hc
      have hsize : '\n'.utf8Size = 1 := by decide
      rw [lineOffset_feed, lineStart_feed, lineOffset_eq s n]
      omega
    · rw [lineOffset_cons hc, lineStart_cons hc, lineOffset_eq s (n + 1)]
      omega

/-! ## The line of a byte

Lines are counted by the feeds before a byte.  So a byte comes after the start of its line, and
before the start of the next one. -/

theorem byteLine_feed (s : List Char) (i : Nat) :
    byteLine ('\n' :: s) (i + 1) = byteLine s i + 1 := by
  rw [byteLine, byteLine, bytes_cons, utf8EncodeChar_feed, List.singleton_append,
    List.take_succ_cons, List.count_cons_self, Nat.add_assoc]

theorem byteLine_of_lt {c : Char} (h : c ≠ '\n') {i : Nat} (hi : i < c.utf8Size) :
    byteLine (c :: s) i = 1 := by
  have hnone : feed ∉ (bytes (c :: s)).take i := by
    rw [bytes_cons, List.take_append_of_le_length
      (by rw [String.length_utf8EncodeChar]; exact hi.le)]
    exact fun hmem => feed_notMem h (List.mem_of_mem_take hmem)
  rw [byteLine, List.count_eq_zero_of_not_mem hnone]

theorem byteLine_of_le {c : Char} (h : c ≠ '\n') {i : Nat} (hi : c.utf8Size ≤ i) :
    byteLine (c :: s) i = byteLine s (i - c.utf8Size) := by
  have hlength := String.length_utf8EncodeChar c
  rw [byteLine, byteLine, bytes_cons, List.take_append, List.take_of_length_le (by omega), hlength,
    List.count_append, List.count_eq_zero_of_not_mem (feed_notMem h), Nat.zero_add]

/-- **A byte is not behind its line**, by induction on the text. -/
theorem le_lineOffset_byteLine : ∀ {s : List Char} {i : Nat}, i ≤ byteLength s →
    i ≤ lineOffset s (byteLine s i)
  | [], i, h => Nat.le_trans h (Nat.zero_le _)
  | c :: s, 0, _ => Nat.zero_le _
  | c :: s, i + 1, h => by
    rw [byteLength_cons] at h
    by_cases hc : c = '\n'
    · subst hc
      have hsize : '\n'.utf8Size = 1 := by decide
      have ih := le_lineOffset_byteLine (s := s) (i := i) (by omega)
      rw [byteLine_feed, lineOffset_feed]
      omega
    · rcases Nat.lt_or_ge (i + 1) c.utf8Size with hfirst | hrest
      · rw [byteLine_of_lt hc hfirst, lineOffset_cons hc]
        omega
      · have ih := le_lineOffset_byteLine (s := s) (i := i + 1 - c.utf8Size) (by omega)
        obtain ⟨n, hn⟩ : ∃ n, byteLine s (i + 1 - c.utf8Size) = n + 1 := ⟨_, Nat.add_comm 1 _⟩
        rw [hn] at ih
        rw [byteLine_of_le hc hrest, hn, lineOffset_cons hc]
        omega

end Text

namespace Report

open Text (fedLines lineOffset lineSize)

variable {s : List Char} {line column line' column' i j : Nat}

/-! ## Sums in a word

A text that is in memory has fewer bytes than a word can count, but a column can be any word.  Their
sum may be too large, and wraps around then; `Fits` says when it is not. -/

/-- The offset of a line and a column: so many bytes behind the start of the line, counted in a word,
or the end of the text. -/
theorem lineColumnOffset_eq_lineOffset (s : List Char) (line column : Nat) :
    lineColumnOffset s line column
      = min ((lineOffset s (line - 1) + (column - 1)) % wordRange s) (byteLength s) := by
  rw [lineColumnOffset_eq, Text.lineOffset_eq]

theorem lineColumnOffset_le (s : List Char) (line column : Nat) :
    lineColumnOffset s line column ≤ byteLength s := by
  rw [lineColumnOffset_eq]
  exact Nat.min_le_right _ _

/-- The word of a text that a memory can hold has 64 bits. -/
theorem wordRange_eq (h : byteLength s < 2 ^ 64) : wordRange s = 2 ^ 64 :=
  Nat.max_eq_left h

/-- The start of a line and the bytes before a column are so few that their sum fits into a word.
Exactly where it does not, a program that is built with checks for overflow stops instead of wrapping
around. -/
def Fits (s : List Char) (line column : Nat) : Prop :=
  lineOffset s (line - 1) + (column - 1) < wordRange s

/-- Where the sum fits, the offset is the sum, brought into the text. -/
theorem Fits.lineColumnOffset_eq (h : Fits s line column) :
    lineColumnOffset s line column
      = min (lineOffset s (line - 1) + (column - 1)) (byteLength s) := by
  rw [lineColumnOffset_eq_lineOffset, Nat.mod_eq_of_lt h]

theorem lineOffset_le (s : List Char) (n : Nat) : lineOffset s n ≤ byteLength s := by
  rw [Text.lineOffset_eq]
  exact Nat.min_le_right _ _

/-- The start of a line, with the bytes of that line, leads at most to the start of the next. -/
theorem lineOffset_add_lineSize_le (s : List Char) (line : Nat) :
    lineOffset s (line - 1) + lineSize s line ≤ lineOffset s line := by
  cases line with
  | zero => exact Nat.le_refl _
  | succ n => rw [Text.lineOffset_succ, Nat.add_sub_cancel]

/-- **A column within its line fits**, because it leads at most to the start of the next line. -/
theorem fits_of_le_lineSize (h : column ≤ lineSize s line + 1) : Fits s line column := by
  have hend := lineOffset_add_lineSize_le s line
  have hlength := lineOffset_le s line
  have hword := byteLength_lt_wordRange s
  rw [Fits]
  omega

/-- A text and a column that take up at most half of a word each fit together. -/
theorem fits_of_half (hs : byteLength s < 2 ^ 63) (hcolumn : column ≤ 2 ^ 63) (line : Nat) :
    Fits s line column := by
  have hstart := lineOffset_le s (line - 1)
  rw [Fits, wordRange_eq (by omega)]
  omega

/-! ## The order of positions

Positions are ordered by line first and then by column, and offsets as numbers.  The two orders
agree as long as the columns stay in their lines; beyond that a column leads into later lines. -/

/-- Every column of a line behind the last one is at the end of the text, unless it wraps around. -/
theorem lineColumnOffset_of_length_lt (h : (fedLines s).length < line) (hfits : Fits s line column) :
    lineColumnOffset s line column = byteLength s := by
  rw [hfits.lineColumnOffset_eq, Text.lineOffset_of_length_le (Nat.le_sub_one_of_lt h)]
  omega

/-- **Offsets grow with lines and columns**, from a column that stays within its line to any that
fits. -/
theorem lineColumnOffset_mono (hline : column ≤ lineSize s line + 1) (hfits : Fits s line' column')
    (h : toLex (line, column) ≤ toLex (line', column')) :
    lineColumnOffset s line column ≤ lineColumnOffset s line' column' := by
  rw [(fits_of_le_lineSize hline).lineColumnOffset_eq, hfits.lineColumnOffset_eq]
  rcases Prod.Lex.toLex_le_toLex.1 h with hlt | ⟨heq, hle⟩
  -- a column within its line is at most at the end of it, where a later line may start
  · have hend := lineOffset_add_lineSize_le s line
    have hnext : lineOffset s line ≤ lineOffset s (line' - 1) :=
      Text.lineOffset_mono s (Nat.le_sub_one_of_lt hlt)
    omega
  · dsimp only at heq hle
    subst heq
    omega

/-- **The column of a byte stays within its line.** -/
theorem byteColumn_le_lineSize (h : i ≤ byteLength s) :
    byteColumn s i ≤ lineSize s (byteLine s i) + 1 := by
  have hback := Text.lineStart_add_column h
  have hend := Text.le_lineOffset_byteLine h
  rw [byteLine, Nat.add_comm 1, Text.lineOffset_succ, Text.lineOffset_eq] at hend
  rw [byteColumn, byteLine, Nat.add_comm 1]
  omega

/-- **Bytes are in the order of their lines and columns.** -/
theorem le_iff_position_le (hi : i ≤ byteLength s) (hj : j ≤ byteLength s) :
    i ≤ j ↔ toLex (byteLine s i, byteColumn s i) ≤ toLex (byteLine s j, byteColumn s j) := by
  have hmono : ∀ {i j : Nat}, i ≤ byteLength s → j ≤ byteLength s →
      toLex (byteLine s i, byteColumn s i) ≤ toLex (byteLine s j, byteColumn s j) → i ≤ j := by
    intro i j hi hj h
    have hle := lineColumnOffset_mono (byteColumn_le_lineSize hi)
      (fits_of_le_lineSize (byteColumn_le_lineSize hj)) h
    rwa [lineColumnOffset_byte hi, lineColumnOffset_byte hj] at hle
  refine ⟨fun h => ?_, hmono hi hj⟩
  rcases le_total (toLex (byteLine s i, byteColumn s i)) (toLex (byteLine s j, byteColumn s j))
    with hle | hge
  · exact hle
  · rw [Nat.le_antisymm h (hmono hj hi hge)]

/-- A column beyond its line that fits leads behind the start of the next line, if the text goes on
there. -/
theorem lt_lineColumnOffset (hline : lineSize s line + 1 < column) (hfits : Fits s line column)
    (hpos : 0 < line) (hmore : lineColumnOffset s (line + 1) 1 < byteLength s) :
    lineColumnOffset s (line + 1) 1 < lineColumnOffset s line column := by
  obtain ⟨n, rfl⟩ := Nat.exists_eq_add_one_of_ne_zero hpos.ne'
  have hnext : Fits s (n + 1 + 1) 1 := fits_of_le_lineSize (Nat.le_add_left _ _)
  rw [hnext.lineColumnOffset_eq, Nat.add_sub_cancel, Text.lineOffset_succ] at hmore ⊢
  rw [hfits.lineColumnOffset_eq, Nat.add_sub_cancel]
  omega

/-- **Positions and offsets.**  For every text:
* the offset of the line and the column of a byte, or of the end of the text, is that byte;
* the offset of any line and any column at all is at most the length of the text;
* offsets grow with the line, and on one line with the column, as long as the columns stay within
  their lines: they are at most one more than there are bytes in the line, the line feed included;
* for that the second column need only fit into a word, and then a line behind the last one is at the
  end of the text;
* a first column that does not stay within its line leads behind the start of the next line, if it
  fits and there are bytes left;
* the column of a byte stays within its line, and bytes are in the order of their lines and columns;
* the offset is the sum of the start of the line and the bytes before the column, wrapped around in a
  word and brought into the text.  The word has 64 bits if the text has less than `2 ^ 64` bytes.  The
  sum does not wrap around if the column stays within its line, nor if the text has less than
  `2 ^ 63` bytes and the column is at most `2 ^ 63`. -/
theorem lineColumnOffset_positions (s : List Char) :
    (∀ i ≤ byteLength s, lineColumnOffset s (byteLine s i) (byteColumn s i) = i) ∧
    (∀ line column, lineColumnOffset s line column ≤ byteLength s) ∧
    (∀ line column line' column', column ≤ lineSize s line + 1 → column' ≤ lineSize s line' + 1 →
      toLex (line, column) ≤ toLex (line', column') →
      lineColumnOffset s line column ≤ lineColumnOffset s line' column') ∧
    (∀ line' column', Fits s line' column' →
      (∀ line column, column ≤ lineSize s line + 1 → toLex (line, column) ≤ toLex (line', column') →
        lineColumnOffset s line column ≤ lineColumnOffset s line' column') ∧
      ((fedLines s).length < line' → lineColumnOffset s line' column' = byteLength s)) ∧
    (∀ line column, 0 < line → lineSize s line + 1 < column → Fits s line column →
      lineColumnOffset s (line + 1) 1 < byteLength s →
      lineColumnOffset s (line + 1) 1 < lineColumnOffset s line column) ∧
    (∀ i ≤ byteLength s, byteColumn s i ≤ lineSize s (byteLine s i) + 1 ∧
      ∀ j ≤ byteLength s,
        (i ≤ j ↔ toLex (byteLine s i, byteColumn s i) ≤ toLex (byteLine s j, byteColumn s j))) ∧
    ∀ line column, lineColumnOffset s line column
        = min ((lineOffset s (line - 1) + (column - 1)) % wordRange s) (byteLength s) ∧
      (byteLength s < 2 ^ 64 → wordRange s = 2 ^ 64) ∧
      (column ≤ lineSize s line + 1 → Fits s line column) ∧
      (byteLength s < 2 ^ 63 → column ≤ 2 ^ 63 → Fits s line column) :=
  ⟨fun _ => lineColumnOffset_byte, lineColumnOffset_le s,
    fun _ _ _ _ hline hline' => lineColumnOffset_mono hline (fits_of_le_lineSize hline'),
    fun _ _ hfits => ⟨fun _ _ hline => lineColumnOffset_mono hline hfits,
      fun hbehind => lineColumnOffset_of_length_lt hbehind hfits⟩,
    fun _ _ hpos hline hfits => lt_lineColumnOffset hline hfits hpos,
    fun _ hi => ⟨byteColumn_le_lineSize hi, fun _ => le_iff_position_le hi⟩,
    fun line column => ⟨lineColumnOffset_eq_lineOffset s line column, wordRange_eq,
      fits_of_le_lineSize, fun hs hcolumn => fits_of_half hs hcolumn line⟩⟩

/-- Two lines, the first with a letter of two bytes. -/
def twoLines : List Char := "é\nab".toList

/-- The first line has three bytes.  Its last column is the one behind its line feed; from the next one
on, offsets are behind the start of the second line. -/
theorem lineColumnOffset_positions_twoLines :
    (4 ≤ byteLength twoLines ∧
      lineColumnOffset twoLines (byteLine twoLines 4) (byteColumn twoLines 4) = 4) ∧
    ((4 ≤ lineSize twoLines 1 + 1 ∧ 1 ≤ lineSize twoLines 2 + 1) ∧
      lineColumnOffset twoLines 1 4 ≤ lineColumnOffset twoLines 2 1) ∧
    ((Fits twoLines 3 7 ∧ (fedLines twoLines).length < 3) ∧
      lineColumnOffset twoLines 3 7 = byteLength twoLines) ∧
    ((lineSize twoLines 1 + 1 < 5 ∧ Fits twoLines 1 5) ∧
      lineColumnOffset twoLines 2 1 < lineColumnOffset twoLines 1 5) ∧
    toLex (byteLine twoLines 1, byteColumn twoLines 1)
      ≤ toLex (byteLine twoLines 3, byteColumn twoLines 3) ∧
    byteLength twoLines < 2 ^ 63 ∧ wordRange twoLines = 2 ^ 64 := by
  have hlast : 4 ≤ byteLength twoLines := by decide
  have hbehind : (fedLines twoLines).length < 3 := by decide
  have hwithin : 4 ≤ lineSize twoLines 1 + 1 := by decide
  have hwithin' : 1 ≤ lineSize twoLines 2 + 1 := by decide
  have hbeyond : lineSize twoLines 1 + 1 < 5 := by decide
  have hmore : lineColumnOffset twoLines (1 + 1) 1 < byteLength twoLines := by decide
  have hsmall : byteLength twoLines < 2 ^ 63 := by decide
  obtain ⟨hback, -, hmono, hfar, hsharp, horder, hsum⟩ := lineColumnOffset_positions twoLines
  have hthird : Fits twoLines 3 7 := (hsum 3 7).2.2.2 hsmall (by decide)
  have hfirst : Fits twoLines 1 5 := (hsum 1 5).2.2.2 hsmall (by decide)
  refine ⟨⟨hlast, hback 4 hlast⟩, ⟨⟨hwithin, hwithin'⟩,
    hmono 1 4 2 1 hwithin hwithin' (Prod.Lex.toLex_le_toLex.2 (.inl (by decide)))⟩,
    ⟨⟨hthird, hbehind⟩, (hfar 3 7 hthird).2 hbehind⟩,
    ⟨⟨hbeyond, hfirst⟩, hsharp 1 5 (by decide) hbeyond hfirst hmore⟩, ?_, hsmall,
    (hsum 2 2).2.1 (by omega)⟩
  exact ((horder 1 (by decide)).2 3 (by decide)).1 (by decide)

/-- The largest column of a word leads from the second line back to the start of the text. -/
example : lineColumnOffset "a\nb".toList 2 (2 ^ 64 - 1) = 0 := by decide

end Report
end Frontispiece
