import Frontispiece.Proofs.Artifact.Markdown
import Mathlib.Algebra.Group.Nat.Even

/-!
# Fences that are counted

The check of a text counts the lines that start with three marks and asks for an even number.  A
block of fenced code may hold such lines, and it is closed by some of them only.  So the check is
right when the other ones, the *strays*, are even in number, and wrong when they are odd.

## What is here

* `opening?`, `closes` — which lines open a block of fenced code at the top level, and close it.
* `openAfter` — the block that is open after some lines, if one is.
* `strays` — the lines that are counted, but neither open a block nor close one.
* `isFence_toNat`, `countP_isFence` — what one line does to the count, and by induction what all of
  them do.
* `unclosedFence_iff` — the check against the blocks, and `unclosedFence_wrong`, which has a text for
  each way of being wrong.

The check counts lines and knows nothing of blocks.  That it is right about most texts has one
reason: in a text without strays every fence opens or closes a block, and then the count is odd just
when a block is open.  By `isFence_toNat` each stray changes the parity once, so the check is right
again when there are two of them, for no better reason than that.
-/

set_option autoImplicit false

namespace Frontispiece
namespace Artifact

open Markdown (Fence)

variable {line : List Char} {open? : Option Fence} {fence : Fence}

/-! ## Blocks of fenced code

A block is opened by three or more marks and closed by as many of the same kind, and what stands in
between is code even if it looks like a fence.  This is the rule that the check simplifies. -/

/-- The text of a line without the spaces at its start. -/
def unindented (line : List Char) : List Char :=
  line.dropWhile (· == ' ')

/-- The fence that a line is at the top level of a text, with at most three spaces before it. -/
def opening? (line : List Char) : Option Fence :=
  if (line.takeWhile (· == ' ')).length ≤ 3 then Markdown.fence? (unindented line) else none

/-- Whether a line closes the block of a fence: it holds the mark of the fence only, at least as
often, with spaces around. -/
def closes (fence : Fence) (line : List Char) : Bool :=
  let marks := Text.dropTrailing (· == ' ') (unindented line)
  fence.size ≤ marks.length && marks.all (· == fence.mark)

/-- The block that is open after a line. -/
def nextOpen (open? : Option Fence) (line : List Char) : Option Fence :=
  match open? with
  | none => opening? line
  | some fence => if closes fence line then none else some fence

/-- The block that is open after lines. -/
def openAfter (open? : Option Fence) (lines : List (List Char)) : Option Fence :=
  lines.foldl nextOpen open?

/-- Whether a line opens a block, or closes the one that is open. -/
def turns (open? : Option Fence) (line : List Char) : Bool :=
  (nextOpen open? line).isSome != open?.isSome

/-- The lines that look like fences, but neither open a block nor close one. -/
def strays (open? : Option Fence) : List (List Char) → List (List Char)
  | [] => []
  | line :: rest =>
    if isFence line && !turns open? line then line :: strays (nextOpen open? line) rest
    else strays (nextOpen open? line) rest

/-! ## Lines that open and close blocks

Every line that opens or closes a block starts with three marks, so the check counts all of them.
The other direction fails, and those lines are the strays. -/

/-- A fence that opens a block has three marks at least, of one of two kinds. -/
structure IsOpening (fence : Fence) : Prop where
  mark : fence.mark = '\x60' ∨ fence.mark = '~'
  size : 3 ≤ fence.size

/-- Blanks at the start are spaces when a mark comes after them. -/
theorem trimStart_eq_unindented {c : Char} {s : List Char} (hblank : Text.isBlank c = false) :
    ∀ {line : List Char}, unindented line = c :: s → Text.trimStart line = c :: s
  | [], h => by cases h
  | d :: line, h => by
    rw [unindented, List.dropWhile_cons] at h
    rw [Text.trimStart, List.dropWhile_cons]
    split at h
    · next hspace =>
      have hblankd : Text.isBlank d = true := by
        rw [beq_iff_eq.1 hspace]
        decide
      rw [if_pos hblankd]
      exact trimStart_eq_unindented hblank h
    · cases h
      rw [if_neg (by simp [hblank])]

/-- **A line that starts with three marks of a kind is counted.** -/
theorem isFence_of_prefix {mark : Char} {n : Nat} (hmark : mark = '\x60' ∨ mark = '~')
    (hsize : 3 ≤ n) (h : List.replicate n mark <+: unindented line) : isFence line = true := by
  obtain ⟨s, hs⟩ := h
  obtain ⟨n, rfl⟩ := Nat.exists_eq_add_of_le hsize
  rw [Nat.add_comm, List.replicate_succ, List.replicate_succ, List.replicate_succ] at hs
  have hblank : Text.isBlank mark = false := by
    rcases hmark with rfl | rfl <;> decide
  rw [isFence, trimStart_eq_unindented hblank hs.symm, Bool.or_eq_true, Text.startsWith_iff,
    Text.startsWith_iff]
  rcases hmark with rfl | rfl
  · exact .inl ⟨_, rfl⟩
  · exact .inr ⟨_, rfl⟩

theorem takeWhile_eq_replicate (mark : Char) (s : List Char) :
    s.takeWhile (· == mark) = List.replicate (s.takeWhile (· == mark)).length mark :=
  List.eq_replicate_of_mem fun c hc => by simpa using List.mem_takeWhile_imp hc

/-- What a fence is read from. -/
theorem fence?_eq_some {s : List Char} (h : Markdown.fence? s = some fence) :
    IsOpening fence ∧ List.replicate fence.size fence.mark <+: s := by
  cases s with
  | nil => cases h
  | cons mark s =>
    simp only [Markdown.fence?, Option.ite_none_right_eq_some, Bool.and_eq_true, Bool.or_eq_true,
      beq_iff_eq, decide_eq_true_eq] at h
    obtain ⟨⟨⟨hmark, hsize⟩, -⟩, heq⟩ := h
    cases heq
    exact ⟨⟨hmark, hsize⟩, takeWhile_eq_replicate mark (mark :: s) ▸ List.takeWhile_prefix _⟩

theorem isFence_of_opening? (h : opening? line = some fence) :
    IsOpening fence ∧ isFence line = true := by
  rw [opening?, Option.ite_none_right_eq_some] at h
  obtain ⟨hopening, hprefix⟩ := fence?_eq_some h.2
  exact ⟨hopening, isFence_of_prefix hopening.mark hopening.size hprefix⟩

theorem isFence_of_closes (hopening : IsOpening fence) (h : closes fence line = true) :
    isFence line = true := by
  rw [closes, Bool.and_eq_true, decide_eq_true_eq, List.all_eq_true] at h
  obtain ⟨hsize, hall⟩ := h
  have hmarks := List.eq_replicate_of_mem fun c hc => beq_iff_eq.1 (hall c hc)
  refine isFence_of_prefix hopening.mark (Nat.le_trans hopening.size hsize) ?_
  rw [← hmarks, Text.dropTrailing_eq]
  exact List.rdropWhile_prefix _ _

/-! ## Counting

A block that is opened and closed counts twice.  So the parity of all lines with three marks is that
of the strays, unless a block is open at the end, which turns it around. -/

/-- Whatever is open was opened by a fence. -/
def IsOpened (open? : Option Fence) : Prop :=
  ∀ fence ∈ open?, IsOpening fence

theorem IsOpened.next (h : IsOpened open?) (line : List Char) : IsOpened (nextOpen open? line) := by
  intro fence hfence
  cases open? with
  | none => exact (isFence_of_opening? hfence).1
  | some current =>
    rw [nextOpen, Option.mem_def, Option.ite_none_left_eq_some] at hfence
    exact h fence hfence.2

/-- A line that opens a block or closes one is counted. -/
theorem isFence_of_turns (h : IsOpened open?) (hturns : turns open? line = true) :
    isFence line = true := by
  cases open? with
  | none =>
    obtain ⟨fence, hfence⟩ : ∃ fence, opening? line = some fence := by
      simpa [turns, nextOpen, Option.isSome_iff_exists] using hturns
    exact (isFence_of_opening? hfence).2
  | some fence =>
    have hcloses : closes fence line = true := by
      by_contra hnot
      simp [turns, nextOpen, hnot] at hturns
    exact isFence_of_closes (h fence rfl) hcloses

theorem length_strays_cons (open? : Option Fence) (line : List Char) (rest : List (List Char)) :
    (strays open? (line :: rest)).length
      = (isFence line && !turns open? line).toNat + (strays (nextOpen open? line) rest).length := by
  rw [strays]
  split
  · next hstray => simp [hstray, Nat.add_comm]
  · next hstray => simp [hstray]

/-- **A line changes the count by one when it is a stray, or when it opens a block or closes one.** -/
theorem isFence_toNat (h : IsOpened open?) (line : List Char) :
    (isFence line).toNat % 2 = (open?.isSome.toNat + (nextOpen open? line).isSome.toNat
      + (isFence line && !turns open? line).toNat) % 2 := by
  have hcounted : turns open? line = true → isFence line = true := isFence_of_turns h
  rw [turns] at hcounted ⊢
  generalize open?.isSome = before, (nextOpen open? line).isSome = after,
    isFence line = counted at hcounted ⊢
  revert before after counted
  decide

/-- So the lines that are counted are the strays, and one more or less for what is open, **by
induction on the lines**. -/
theorem countP_isFence : ∀ (lines : List (List Char)) {open? : Option Fence}, IsOpened open? →
    lines.countP isFence % 2 = (open?.isSome.toNat + (openAfter open? lines).isSome.toNat
      + (strays open? lines).length) % 2
  | [], _, _ => by
    simp [openAfter, strays]
    omega
  | line :: rest, open?, h => by
    have hline := isFence_toNat h line
    have hrest := countP_isFence rest (h.next line)
    have hcount : (line :: rest).countP isFence = rest.countP isFence + (isFence line).toNat := by
      rw [List.countP_cons]
      cases isFence line <;> rfl
    have hopen : openAfter open? (line :: rest) = openAfter (nextOpen open? line) rest := rfl
    rw [hcount, length_strays_cons, hopen]
    omega

/-! ## The check

The lint and the rule agree on texts with an even number of strays.  Both ways to have an odd number
are shown on texts of a few lines. -/

/-- The block of fenced code that is open at the end of a text. -/
def openAtEnd (s : List Char) : Option Fence :=
  openAfter none (Text.lines s)

/-- **The check for fences is right about the texts whose strays are even in number, and about no
others.**  To be right about a text is to report a fence exactly if a block of fenced code is open at
the end of the text. -/
theorem unclosedFence_iff (s : List Char) :
    (.unclosedFence ∈ markdownProblems s ↔ (openAtEnd s).isSome = true) ↔
      Even (strays none (Text.lines s)).length := by
  have hstart : IsOpened none := nofun
  have hparity := countP_isFence (Text.lines s) hstart
  rw [mem_markdownProblems_iff, HasProblem, hparity, Nat.even_iff, openAtEnd]
  cases (openAfter none (Text.lines s)).isSome with
  | false => simp
  | true =>
    simp
    omega

/-- A block of code between fences of four marks, in which a fence of three marks stands. -/
def longFences : List Char := "\x60\x60\x60\x60\n\x60\x60\x60\n\x60\x60\x60\x60\n".toList

/-- A block of code that is not closed, in which a fence of the other kind stands. -/
def mixedFences : List Char := "\x60\x60\x60\n~~~\n".toList

/-- **The check for fences is wrong in both ways.**  It reports a fence in a text whose only block is
closed, and reports nothing of a text whose block is open to its end. -/
theorem unclosedFence_wrong :
    (markdownProblems longFences = [.unclosedFence] ∧ openAtEnd longFences = none ∧
      Markdown.toHtml longFences = "<pre><code>\x60\x60\x60\n</code></pre>\n".toList) ∧
    markdownProblems mixedFences = [] ∧ (openAtEnd mixedFences).isSome = true ∧
      Markdown.toHtml mixedFences = "<pre><code>~~~\n</code></pre>\n".toList := by
  refine ⟨⟨?_, ?_, ?_⟩, ?_, ?_, ?_⟩ <;> decide +kernel

end Artifact
end Frontispiece
