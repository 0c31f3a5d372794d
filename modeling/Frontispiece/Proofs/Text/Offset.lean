import Frontispiece.Proofs.Text.Pieces
import Frontispiece.Text.Offset
import Mathlib.Algebra.Order.Ring.Nat
import Mathlib.Data.List.DropRight

/-!
# Bytes and characters

A place in a text is told by bytes, what is shown there by characters.  A character takes up to four
bytes, so most offsets of a text that is not ASCII are in the middle of a character.

## What is here

* `bytes` — the UTF-8 form of a text.
* `Covers` — a byte belongs to the character with an index; `exists_covers` finds it.
* `charIndex_of_covers` — what `charIndex` makes of a byte: the index of its character for the first
  byte of one, and the next index for the others.
* `byteLine`, `byteColumn` — the line and the column of a byte.
* `lineStart_add_column` — the lines before that line, and then the column, lead back to the byte.

Three ways to count are related here: characters, bytes, and lines with columns.  Bytes are taken as
the measure, since both other counts are computed from them by the program.  Inside of a character
the number of characters before a byte is one more than the index of its character, and this is the
only case in which anything is off.
-/

set_option autoImplicit false

namespace Frontispiece
namespace Text

variable {s : List Char} {k i : Nat}

/-! ## Lengths

The length of a text in bytes is the sum over its characters.  It is tied to the bytes themselves
here, since a byte is what an offset points to. -/

@[simp] theorem byteLength_nil : byteLength [] = 0 := rfl

theorem foldl_utf8Size (s : List Char) (n : Nat) :
    s.foldl (fun n c => n + c.utf8Size) n = n + byteLength s := by
  induction s generalizing n with
  | nil => rfl
  | cons c s ih =>
    rw [byteLength, List.foldl_cons, List.foldl_cons, ih, ih, Nat.zero_add, Nat.add_assoc]

@[simp] theorem byteLength_cons (c : Char) (s : List Char) :
    byteLength (c :: s) = c.utf8Size + byteLength s := by
  rw [byteLength, List.foldl_cons, foldl_utf8Size, Nat.zero_add]

/-- The bytes of the UTF-8 form. -/
def bytes (s : List Char) : List UInt8 :=
  s.flatMap String.utf8EncodeChar

@[simp] theorem bytes_cons (c : Char) (s : List Char) :
    bytes (c :: s) = String.utf8EncodeChar c ++ bytes s := List.flatMap_cons

@[simp] theorem length_bytes (s : List Char) : (bytes s).length = byteLength s := by
  induction s with
  | nil => rfl
  | cons c s ih => rw [bytes_cons, List.length_append, String.length_utf8EncodeChar, ih,
      byteLength_cons]

/-! ## The character of a byte

A byte belongs to exactly one character, which need not start with it.  `charIndex` counts the
characters that start before an offset, and the two differ inside of a character. -/

/-- Byte `i` belongs to the character with index `k`. -/
def Covers (s : List Char) (k i : Nat) : Prop :=
  k < s.length ∧ byteLength (s.take k) ≤ i ∧ i < byteLength (s.take (k + 1))

instance (s : List Char) (k i : Nat) : Decidable (Covers s k i) :=
  inferInstanceAs (Decidable (_ ∧ _ ∧ _))

theorem covers_zero_iff {c : Char} : Covers (c :: s) 0 i ↔ i < c.utf8Size := by
  simp [Covers]

/-- Beyond the first character the bytes are those of the rest. -/
theorem covers_succ_iff {c : Char} :
    Covers (c :: s) (k + 1) i ↔ c.utf8Size ≤ i ∧ Covers s k (i - c.utf8Size) := by
  simp only [Covers, List.length_cons, List.take_succ_cons, byteLength_cons]
  omega

/-- **Each byte belongs to a character.** -/
theorem exists_covers : ∀ {s : List Char} {i : Nat}, i < byteLength s → ∃ k, Covers s k i
  | [], _, h => absurd h (Nat.not_lt_zero _)
  | c :: s, i, h => by
    rw [byteLength_cons] at h
    rcases Nat.lt_or_ge i c.utf8Size with hfirst | hrest
    · exact ⟨0, covers_zero_iff.2 hfirst⟩
    · obtain ⟨k, hk⟩ := exists_covers (s := s) (i := i - c.utf8Size) (by omega)
      exact ⟨k + 1, covers_succ_iff.2 ⟨hrest, hk⟩⟩

/-- A byte of a character is a byte of the text. -/
theorem Covers.lt_byteLength : ∀ {s : List Char} {k i : Nat}, Covers s k i → i < byteLength s
  | [], _, _, h => absurd h.1 (Nat.not_lt_zero _)
  | c :: s, 0, i, h => by
    rw [byteLength_cons]
    exact Nat.lt_add_right _ (covers_zero_iff.1 h)
  | c :: s, k + 1, i, h => by
    obtain ⟨hle, hrest⟩ := covers_succ_iff.1 h
    have hlt := hrest.lt_byteLength
    rw [byteLength_cons]
    omega

/-- **What `charIndex` makes of a byte.**  It counts the characters that start before the byte; that
of the byte itself is one of them unless the byte is its first. -/
theorem charIndex_of_covers : ∀ {s : List Char} {k i : Nat}, Covers s k i →
    charIndex s i = if byteLength (s.take k) = i then k else k + 1
  | [], _, _, h => absurd h.1 (Nat.not_lt_zero _)
  | c :: s, 0, i, h => by
    have hafter : i - c.utf8Size = 0 := Nat.sub_eq_zero_of_le (Nat.le_of_lt (covers_zero_iff.1 h))
    have hnone : charIndex s 0 = 0 := by cases s <;> simp [charIndex]
    rw [charIndex, hafter, hnone, List.take_zero, byteLength_nil]
    simp only [eq_comm]
  | c :: s, k + 1, i, h => by
    obtain ⟨hle, hrest⟩ := covers_succ_iff.1 h
    have hpos := c.utf8Size_pos
    have hne : i ≠ 0 := by omega
    rw [charIndex, if_neg hne, charIndex_of_covers hrest, List.take_succ_cons, byteLength_cons]
    split
    · rw [if_pos (by omega), Nat.add_comm]
    · rw [if_neg (by omega), Nat.add_comm]

/-! ## The line and the column of a byte

Line feeds are looked for among bytes.  A byte of a longer character is never a line feed, so the
lines of the bytes are the lines of the text. -/

/-- The byte of a line feed. -/
def feed : UInt8 := 10

/-- The line of a byte, counted from one: one more than there are line feeds before it. -/
def byteLine (s : List Char) (i : Nat) : Nat :=
  1 + ((bytes s).take i).count feed

/-- The column of a byte, counted from one: the number of bytes from the start of its line, the byte
itself included. -/
def byteColumn (s : List Char) (i : Nat) : Nat :=
  (((bytes s).take i).rtakeWhile (· != feed)).length + 1

theorem utf8EncodeChar_feed : String.utf8EncodeChar '\n' = [feed] := by decide

/-- Only a line feed has the byte of one: the bytes of characters beyond ASCII are large. -/
theorem feed_notMem {c : Char} (h : c ≠ '\n') : feed ∉ String.utf8EncodeChar c := by
  have hval : c.val.toNat = c.toNat := rfl
  have hne : c.toNat ≠ 10 := fun heq => h (Char.ext (UInt32.toNat_inj.1 heq))
  have hlt : c.toNat < 0x110000 := by
    rcases c.valid with h | ⟨-, h⟩ <;> omega
  rw [String.utf8EncodeChar, feed]
  split
  · simp [← UInt8.toNat_inj]
    omega
  · split
    · simp [← UInt8.toNat_inj]
      omega
    · split
      · simp [← UInt8.toNat_inj]
        omega
      · simp [← UInt8.toNat_inj]
        omega

/-- The offset at which the line after `n` lines starts. -/
def lineStart (s : List Char) (n : Nat) : Nat :=
  (((splitOn (· == '\n') s).take n).map fun line => byteLength line + 1).sum

theorem lineStart_zero (s : List Char) : lineStart s 0 = 0 := by
  rw [lineStart, List.take_zero, List.map_nil, List.sum_nil]

theorem lineStart_feed (s : List Char) (n : Nat) :
    lineStart ('\n' :: s) (n + 1) = 1 + lineStart s n := by
  rw [lineStart, lineStart, splitOn, if_pos (by rfl), List.take_succ_cons, List.map_cons,
    List.sum_cons, byteLength_nil, Nat.zero_add]

theorem lineStart_cons {c : Char} (h : c ≠ '\n') (s : List Char) (n : Nat) :
    lineStart (c :: s) (n + 1) = c.utf8Size + lineStart s (n + 1) := by
  obtain ⟨piece, pieces, hs⟩ := List.exists_cons_of_ne_nil (splitOn_ne_nil (· == '\n') s)
  rw [lineStart, lineStart, splitOn, if_neg (by simpa using h), hs]
  simp only [List.take_succ_cons, List.map_cons, List.sum_cons, byteLength_cons]
  omega

/-- The last line of some bytes starts after a line feed. -/
theorem rtakeWhile_feed (t w : List UInt8) :
    (t ++ feed :: w).rtakeWhile (· != feed) = w.rtakeWhile (· != feed) := by
  rw [List.rtakeWhile, List.rtakeWhile, List.reverse_append, List.reverse_cons, List.append_assoc,
    List.takeWhile_append]
  split
  · next hall =>
    rw [(List.takeWhile_prefix _).eq_of_length hall]
    simp
  · rfl

theorem rtakeWhile_append {w : List UInt8} (h : feed ∈ w) (t : List UInt8) :
    (t ++ w).rtakeWhile (· != feed) = w.rtakeWhile (· != feed) := by
  obtain ⟨before, after, rfl⟩ := List.append_of_mem h
  rw [← List.append_assoc, rtakeWhile_feed, rtakeWhile_feed]

theorem rtakeWhile_of_notMem {w : List UInt8} (h : feed ∉ w) :
    w.rtakeWhile (· != feed) = w := by
  rw [List.rtakeWhile_eq_self_iff]
  rintro b hb
  have hne : b ≠ feed := fun heq => h (heq ▸ hb)
  simpa using hne

/-- **The lines before the line of a byte, and then its column, lead back to the byte**, by induction
on the text: a character before the line of the byte counts for the lines, and one in it for the
column. -/
theorem lineStart_add_column : ∀ {s : List Char} {i : Nat}, i ≤ byteLength s →
    lineStart s (((bytes s).take i).count feed)
      + (((bytes s).take i).rtakeWhile (· != feed)).length = i
  | [], i, h => by
    rw [Nat.le_zero.1 h]
    rfl
  | c :: s, i, h => by
    rw [byteLength_cons] at h
    by_cases hmem : feed ∈ (bytes (c :: s)).take i
    · by_cases hc : c = '\n'
      · subst hc
        obtain ⟨j, rfl⟩ := Nat.exists_eq_add_one_of_ne_zero (n := i) (by rintro rfl; simp at hmem)
        have hsize : '\n'.utf8Size = 1 := by decide
        have ih := lineStart_add_column (s := s) (i := j) (by omega)
        rw [bytes_cons, utf8EncodeChar_feed, List.singleton_append, List.take_succ_cons,
          List.count_cons_self, lineStart_feed, ← List.nil_append (feed :: _), rtakeWhile_feed]
        omega
      · have hlong : c.utf8Size ≤ i := by
          by_contra hshort
          rw [bytes_cons, List.take_append_of_le_length (by simp; omega)] at hmem
          exact feed_notMem hc (List.mem_of_mem_take hmem)
        have ih := lineStart_add_column (s := s) (i := i - c.utf8Size) (by omega)
        have hlength := String.length_utf8EncodeChar c
        rw [bytes_cons, List.take_append, List.take_of_length_le (by omega), hlength] at hmem ⊢
        have hrest := (List.mem_append.1 hmem).resolve_left (feed_notMem hc)
        obtain ⟨n, hn⟩ := Nat.exists_eq_add_one_of_ne_zero
          (List.count_pos_iff.2 hrest).ne'
        rw [rtakeWhile_append hrest, List.count_append,
          List.count_eq_zero_of_not_mem (feed_notMem hc), Nat.zero_add, hn, lineStart_cons hc, ← hn]
        omega
    · rw [rtakeWhile_of_notMem hmem, List.count_eq_zero_of_not_mem hmem, lineStart_zero,
        List.length_take, length_bytes, byteLength_cons]
      omega

end Text
end Frontispiece
