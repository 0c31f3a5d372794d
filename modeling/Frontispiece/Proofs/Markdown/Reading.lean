import Frontispiece.Markdown.Read
import Frontispiece.Proofs.Markdown.Local

/-!
# Gaps between blocks

A document is read block by block.  The lines between blocks that hold nothing but the marks of
their containers and blanks are its *gaps*; blank lines inside code and HTML are none.

## What is here

* `Outline.advance` — one step of the reader: a block, the mark of an item, or a gap.
* `Outline.gapsFrom` — which lines the reader meets as gaps.
* `Outline.exists_reach` — what is read before a gap does not depend on what comes after it.
* `Outline.pass` — what a gap does to the state.  A second gap does nothing (`pass_pass`), nor does
  a gap at the start (`readAll_start`) or at the end of a document (`finish_pass`).

What comes out of this module is used as one fact: if a line is met as a gap, the reader is in a
state there that does not depend on what follows, and what such a line does to the state is `pass`.
It does not matter then whether there is one gap or several, or whether they are at an end of the
document.  This is all that has to be known of Markdown to justify taking lines away.
-/

set_option autoImplicit false

namespace Frontispiece
namespace Markdown

/-- A container without the indentation of what belongs to it. -/
def Container.settled : Container → Container
  | .item _ blocks => .item 0 blocks
  | container => container

namespace Outline

variable {o : Outline} {line : List Char} {rest lines t : List (List Char)}

/-! ## Steps

The reader takes one block after the other.  A step is a block with the marks before it, and what is
local of blocks is local of steps. -/

/-- One step of the reader, which starts with a line: the state and the lines after it. -/
def advance (o : Outline) (line : List Char) (rest : List (List Char)) :
    Outline × List (List Char) :=
  match (o.goOn line).1.openMarks line.length (o.goOn line).2 with
  | (o, none) => (o, rest)
  | (o, some l) => if blankRest l.rest then (o.blank, rest) else o.block l rest

/-- Whether the reader meets a line as a gap. -/
def meetsGap (o : Outline) (line : List Char) : Bool :=
  ((o.goOn line).1.openMarks line.length (o.goOn line).2).2.any fun l => blankRest l.rest

/-- Reading goes on after the first line with what that line has left. -/
theorem read_succ (fuel : Nat) (o : Outline) (line : List Char) (rest : List (List Char)) :
    read (fuel + 1) o (line :: rest)
      = read fuel (o.advance line rest).1 (o.advance line rest).2 := by
  rw [read, advance]
  dsimp only
  generalize (o.goOn line).1.openMarks line.length (o.goOn line).2 = opened
  obtain ⟨o', _ | l⟩ := opened
  · rfl
  · dsimp only
    split
    · rfl
    · rfl

theorem advance_length (o : Outline) (line : List Char) (rest : List (List Char)) :
    (o.advance line rest).2.length ≤ rest.length := by
  rw [advance]
  split
  · exact Nat.le_refl _
  · split
    · exact Nat.le_refl _
    · exact block_length _ _ rest

/-- A step of the reading is local, whether it is a blank line or a block. -/
theorem advance_isLocal (hline : IsLine line) (o : Outline) : IsLocal (o.advance line) := by
  intro pre hpre
  have hrest := o.goOn_isLine hline
  cases hopen : (o.goOn line).1.openMarks line.length (o.goOn line).2 with
  | mk o' left =>
    cases left with
    | none => exact .stops o' fun t _ => by rw [advance, hopen]
    | some l =>
      by_cases hblank : blankRest l.rest = true
      · refine .stops o'.blank fun t _ => ?_
        rw [advance, hopen]
        exact if_pos hblank
      · refine (block_isLocal (openMarks_isLine hrest hopen) o' pre hpre).map id fun t _ => ?_
        rw [advance, hopen]
        exact if_neg hblank

/-! ## Whole documents

The fuel of the reader is the number of lines, and each step takes one at least, so the fuel is out
of the way from here on. -/

/-- The state after all lines. -/
def readAll (o : Outline) (lines : List (List Char)) : Outline := read lines.length o lines

/-- As many steps as there are lines are enough, and more of them change nothing. -/
theorem read_fuel {n m : Nat} (hn : lines.length ≤ n) (hm : lines.length ≤ m) :
    read n o lines = read m o lines := by
  induction n generalizing m o lines with
  | zero =>
    obtain rfl := List.eq_nil_of_length_eq_zero (Nat.le_zero.mp hn)
    cases m with
    | zero => rfl
    | succ m => rfl
  | succ n ih =>
    cases lines with
    | nil =>
      cases m with
      | zero => rfl
      | succ m => rfl
    | cons line rest =>
      cases m with
      | zero => cases hm
      | succ m =>
        have hlength := o.advance_length line rest
        rw [read_succ, read_succ]
        exact ih (hlength.trans (Nat.le_of_succ_le_succ hn))
          (hlength.trans (Nat.le_of_succ_le_succ hm))

theorem readAll_cons (o : Outline) (line : List Char) (rest : List (List Char)) :
    o.readAll (line :: rest) = (o.advance line rest).1.readAll (o.advance line rest).2 := by
  rw [readAll, List.length_cons, read_succ]
  exact read_fuel (o.advance_length line rest) (Nat.le_refl _)

/-- Which of the lines the reader meets as gaps, of which at most as many as the fuel start a
block. -/
def gapsWithin : Nat → Outline → List (List Char) → List Bool
  | 0, _, _ => []
  | _, _, [] => []
  | fuel + 1, o, line :: rest =>
    o.meetsGap line :: (List.replicate (rest.length - (o.advance line rest).2.length) false
      ++ gapsWithin fuel (o.advance line rest).1 (o.advance line rest).2)

/-- Which of the lines the reader meets as gaps.  The others start a block or an item, or belong to
a block. -/
def gapsFrom (o : Outline) (lines : List (List Char)) : List Bool :=
  gapsWithin lines.length o lines

/-- The same holds of the gaps that are met. -/
theorem gapsWithin_fuel {n m : Nat} (hn : lines.length ≤ n) (hm : lines.length ≤ m) :
    gapsWithin n o lines = gapsWithin m o lines := by
  induction n generalizing m o lines with
  | zero =>
    obtain rfl := List.eq_nil_of_length_eq_zero (Nat.le_zero.mp hn)
    cases m with
    | zero => rfl
    | succ m => rfl
  | succ n ih =>
    cases lines with
    | nil =>
      cases m with
      | zero => rfl
      | succ m => rfl
    | cons line rest =>
      cases m with
      | zero => cases hm
      | succ m =>
        have hlength := o.advance_length line rest
        rw [gapsWithin, gapsWithin, ih (hlength.trans (Nat.le_of_succ_le_succ hn))
          (hlength.trans (Nat.le_of_succ_le_succ hm))]

theorem gapsFrom_cons (o : Outline) (line : List Char) (rest : List (List Char)) :
    o.gapsFrom (line :: rest) = o.meetsGap line
      :: (List.replicate (rest.length - (o.advance line rest).2.length) false
        ++ (o.advance line rest).1.gapsFrom (o.advance line rest).2) := by
  rw [gapsFrom, List.length_cons, gapsWithin, gapsFrom,
    gapsWithin_fuel (o.advance_length line rest) (Nat.le_refl _)]

/-- **What is read before a gap does not depend on what comes after it.**  If the reader meets a
line as a gap, it comes there in the same state whatever lines come from there on. -/
theorem exists_reach {pre : List (List Char)} (hpre : ∀ line ∈ pre, IsLine line) (ht : IsGapped t)
    (hne : t ≠ []) (hgap : (o.gapsFrom (pre ++ t))[pre.length]? = some true) :
    ∃ o' : Outline, (∀ t', IsGapped t' → o.readAll (pre ++ t') = o'.readAll t') ∧
      (o.gapsFrom (pre ++ t)).drop pre.length = o'.gapsFrom t := by
  induction hn : pre.length using Nat.strong_induction_on generalizing o pre with
  | _ n ih =>
    subst hn
    cases pre with
    | nil => exact ⟨o, fun _ _ => rfl, rfl⟩
    | cons line pre =>
      have hline := hpre line List.mem_cons_self
      have hpre' : ∀ s ∈ pre, IsLine s := fun s hs => hpre s (List.mem_cons_of_mem _ hs)
      have hlength := o.advance_length line (pre ++ t)
      rw [List.cons_append, gapsFrom_cons, List.length_cons, List.getElem?_cons_succ] at hgap
      -- the gap is none of the lines that belong to the block
      have hstop : t.length ≤ (o.advance line (pre ++ t)).2.length := by
        by_contra hlt
        rw [List.getElem?_append_left, List.getElem?_replicate] at hgap
        · split at hgap <;> cases hgap
        · rw [List.length_replicate, List.length_append]
          omega
      obtain ⟨o₁, kept, hkept, hsame⟩ := advance_isLocal hline o pre hpre' t ht hne hstop
      have hskip : (pre ++ t).length - (kept ++ t).length = pre.length - kept.length := by
        rw [List.length_append, List.length_append]
        omega
      have hle := hkept.length_le
      rw [hsame t ht] at hgap
      dsimp only at hgap
      rw [hskip, List.getElem?_append_right (by rw [List.length_replicate]; omega),
        List.length_replicate, Nat.sub_sub_self hle] at hgap
      obtain ⟨o', hread, hgaps⟩ := ih kept.length (Nat.lt_succ_of_le hle)
        (fun s hs => hpre' s (hkept.subset hs)) hgap rfl
      refine ⟨o', fun t' ht' => ?_, ?_⟩
      · rw [List.cons_append, readAll_cons, hsame t' ht']
        exact hread t' ht'
      · rw [List.cons_append, gapsFrom_cons, hsame t ht, List.length_cons, List.drop_succ_cons]
        dsimp only
        rw [hskip, List.drop_append, List.length_replicate, Nat.sub_sub_self hle, hgaps,
          List.drop_eq_nil_of_le (by rw [List.length_replicate]; omega), List.nil_append]

/-! ## Closing containers

A container is closed by adding its blocks to the one around it.  Of the open containers only their
kinds matter for gaps, and `plains` keeps just these. -/

/-- Which open containers are no quotes, innermost first. -/
def plains (o : Outline) : List Bool := o.opened.map Container.isPlain

@[simp] theorem add_plains (o : Outline) (b : RawBlock) : (o.add b).plains = o.plains := by
  obtain ⟨opened, blocks, blankBefore, itemOnly, task, definitions⟩ := o
  cases opened with
  | nil => rfl
  | cons container outer => cases container <;> rfl

/-- The innermost container is closed, and its entry goes with it. -/
@[simp] theorem pop_plains (o : Outline) : o.pop.plains = o.plains.tail := by
  obtain ⟨opened, blocks, blankBefore, itemOnly, task, definitions⟩ := o
  cases opened with
  | nil => rfl
  | cons container outer =>
    cases container with
    | quote inner => exact add_plains _ _
    | list mark tight items => exact add_plains _ _
    | item indent inner =>
      cases outer with
      | nil => rfl
      | cons container outer => cases container <;> rfl

@[simp] theorem blank_plains (o : Outline) : o.blank.plains = o.plains := by
  obtain ⟨opened, blocks, blankBefore, itemOnly, task, definitions⟩ := o
  cases opened with
  | nil => rfl
  | cons container outer => cases container <;> rfl

theorem plains_length (o : Outline) : o.plains.length = o.opened.length := List.length_map _

theorem pop_length (o : Outline) : o.pop.opened.length = o.opened.length - 1 := by
  rw [← plains_length, ← plains_length, pop_plains, List.length_tail]

/-- All containers but the `n` outermost are closed, and the entries of these stay. -/
theorem popTo_plains {n fuel : Nat} (h : o.opened.length ≤ n + fuel) :
    (popTo n fuel o).plains = o.plains.drop (o.opened.length - n) := by
  induction fuel generalizing o with
  | zero => rw [popTo, Nat.sub_eq_zero_of_le (by omega), List.drop_zero]
  | succ fuel ih =>
    rw [popTo]
    split
    · have hlength := o.pop_length
      rw [ih (by omega), pop_plains, List.drop_tail]
      congr 1
      omega
    · rw [Nat.sub_eq_zero_of_le (by omega), List.drop_zero]

theorem popTo_of_le {n : Nat} (h : o.opened.length ≤ n) (fuel : Nat) : popTo n fuel o = o := by
  cases fuel with
  | zero => rfl
  | succ fuel => exact if_neg (Nat.not_lt.mpr h)

/-! ## Gaps

A gap closes the outermost quote with all that is in it, and leaves a mark that a blank line was
there.  Doing so a second time finds no quote, and the mark is there already. -/

/-- The state after a gap: the outermost quote and all in it are closed. -/
def pass (o : Outline) : Outline := (popTo o.plainCount o.opened.length o).blank

theorem goOn_of_isGap (h : IsGap line) :
    (o.goOn line).1 = popTo o.plainCount o.opened.length o ∧ IsGap (o.goOn line).2.rest := by
  obtain ⟨hcount, hrest⟩ := o.enter_of_isGap h
  exact ⟨congrArg (popTo · o.opened.length o) hcount, hrest⟩

theorem advance_of_isGap (h : IsGap line) : o.advance line rest = (o.pass, rest) := by
  obtain ⟨hstate, hrest⟩ := o.goOn_of_isGap h
  rw [advance, openMarks_of_isGap _ hrest]
  dsimp only
  rw [if_pos hrest.blankRest, hstate, pass]

theorem meetsGap_of_isGap (h : IsGap line) : o.meetsGap line = true := by
  have hrest := (o.goOn_of_isGap h).2
  rw [meetsGap, openMarks_of_isGap _ hrest]
  exact hrest.blankRest

theorem readAll_gap (h : IsGap line) : o.readAll (line :: rest) = o.pass.readAll rest := by
  rw [readAll_cons, advance_of_isGap h]

theorem gapsFrom_gap (h : IsGap line) :
    o.gapsFrom (line :: rest) = true :: o.pass.gapsFrom rest := by
  rw [gapsFrom_cons, advance_of_isGap h, meetsGap_of_isGap h, Nat.sub_self]
  rfl

theorem plainCount_eq (o : Outline) : o.plainCount = (o.plains.reverse.takeWhile id).length := by
  rw [plainCount, containers, plains, ← List.map_reverse, List.takeWhile_map, List.length_map]
  rfl

theorem plainCount_le (o : Outline) : o.plainCount ≤ o.opened.length := by
  rw [plainCount, containers, ← o.opened.length_reverse]
  exact (List.takeWhile_sublist _).length_le

/-- No quote is open after a gap. -/
theorem pass_plainCount (o : Outline) : o.pass.plainCount = o.pass.opened.length := by
  have hplains : o.pass.plains = o.plains.drop (o.opened.length - o.plainCount) := by
    rw [pass, blank_plains, popTo_plains (by omega)]
  have hstart := List.takeWhile_prefix id (l := o.plains.reverse)
  have hle := o.plainCount_le
  have hreverse : o.pass.plains.reverse = o.plains.reverse.takeWhile id := by
    rw [hplains, List.reverse_drop, plains_length, Nat.sub_sub_self hle, plainCount_eq]
    exact (List.prefix_iff_eq_take.mp hstart).symm
  rw [plainCount_eq, ← plains_length, ← o.pass.plains.length_reverse, hreverse,
    List.takeWhile_takeWhile]
  refine congrArg (fun p => (o.plains.reverse.takeWhile p).length) (funext fun plain => ?_)
  cases plain <;> rfl

/-- A second blank line in a row says nothing new. -/
theorem blank_blank (o : Outline) : o.blank.blank = o.blank := by
  obtain ⟨opened, blocks, blankBefore, itemOnly, task, definitions⟩ := o
  cases opened with
  | nil => rfl
  | cons container outer =>
    cases container with
    | quote inner => rfl
    | list mark tight items => rfl
    | item indent inner => cases itemOnly <;> rfl

/-- **A second gap does nothing.** -/
theorem pass_pass (o : Outline) : o.pass.pass = o.pass := by
  rw [pass, popTo_of_le (o.pass_plainCount ▸ Nat.le_refl _)]
  exact blank_blank _

/-! ## The ends of a document

What a gap leaves behind can be seen only when more blocks come.  At the end of a document none
does, and before its first block no container is open; so gaps at both ends can be left out. -/

/-- The blocks and link definitions of a document when all of it is read. -/
def finish (o : Outline) : List RawBlock × Definitions :=
  ((popTo 0 o.opened.length o).blocks.reverse, (popTo 0 o.opened.length o).definitions)

/-- The state without what a gap changes but for the containers that it closes. -/
def settled (o : Outline) : Outline :=
  { o with opened := o.opened.map Container.settled, blankBefore := false }

theorem settled_add (o : Outline) (b : RawBlock) : (o.add b).settled = o.settled.add b := by
  obtain ⟨opened, blocks, blankBefore, itemOnly, task, definitions⟩ := o
  cases opened with
  | nil => rfl
  | cons container outer => cases container <;> rfl

/-- It makes no difference whether a state is settled before its innermost container is closed or
after. -/
theorem settled_pop (o : Outline) : o.pop.settled = o.settled.pop := by
  obtain ⟨opened, blocks, blankBefore, itemOnly, task, definitions⟩ := o
  cases opened with
  | nil => rfl
  | cons container outer =>
    cases container with
    | quote inner => exact settled_add _ _
    | list mark tight items => exact settled_add _ _
    | item indent inner =>
      cases outer with
      | nil => rfl
      | cons container outer => cases container <;> rfl

theorem settled_blank (o : Outline) : o.blank.settled = o.settled := by
  obtain ⟨opened, blocks, blankBefore, itemOnly, task, definitions⟩ := o
  cases opened with
  | nil => rfl
  | cons container outer => cases container <;> rfl

/-- The same holds of several containers. -/
theorem settled_popTo (n fuel : Nat) (o : Outline) :
    (popTo n fuel o).settled = popTo n fuel o.settled := by
  induction fuel generalizing o with
  | zero => rfl
  | succ fuel ih =>
    have hlength : o.settled.opened.length = o.opened.length := List.length_map _
    rw [popTo, popTo, hlength, ← settled_pop, ← ih]
    split
    · rfl
    · rfl

theorem finish_settled (o : Outline) : o.settled.finish = o.finish := by
  have hlength : o.settled.opened.length = o.opened.length := List.length_map _
  rw [finish, finish, hlength, ← settled_popTo]
  rfl

theorem finish_pop (o : Outline) : o.pop.finish = o.finish := by
  cases hopened : o.opened with
  | nil => rw [pop, hopened]
  | cons container outer =>
    have hpop : popTo 0 o.opened.length o = popTo 0 o.pop.opened.length o.pop := by
      rw [pop_length, hopened, List.length_cons, popTo, hopened]
      exact if_pos (Nat.succ_pos _)
    rw [finish, finish, hpop]

theorem finish_popTo (n fuel : Nat) (o : Outline) : (popTo n fuel o).finish = o.finish := by
  induction fuel generalizing o with
  | zero => rfl
  | succ fuel ih =>
    rw [popTo]
    split
    · rw [ih, finish_pop]
    · rfl

/-- **A gap at the end of a document does nothing.** -/
theorem finish_pass (o : Outline) : o.pass.finish = o.finish := by
  rw [pass, ← finish_settled, settled_blank, finish_settled, finish_popTo]

/-- The state before a document whose first line is a gap. -/
def start : Outline := empty.pass

theorem start_pass : start.pass = start := pass_pass empty

theorem start_closeList : start.closeList = empty.closeList := rfl

/-- Marks open the same containers, and without marks nothing changes. -/
theorem openMarks_start (fuel : Nat) (l : Line) :
    start.openMarks fuel l = empty.openMarks fuel l ∨
      start.openMarks fuel l = (start, some l) ∧ empty.openMarks fuel l = (empty, some l) := by
  cases fuel with
  | zero => exact .inr ⟨rfl, rfl⟩
  | succ fuel =>
    rw [openMarks, openMarks]
    cases l.listMark? with
    | some mark => exact .inl rfl
    | none =>
      cases l.quoteMark? with
      | some l => exact .inl rfl
      | none => exact .inr ⟨rfl, rfl⟩

theorem goOn_start (line : List Char) :
    start.goOn line = (start, .ofText line) ∧ empty.goOn line = (empty, .ofText line) :=
  ⟨rfl, rfl⟩

/-- **A gap before the first line makes no difference to it.** -/
theorem advance_start (line : List Char) (rest : List (List Char)) :
    start.advance line rest = empty.advance line rest := by
  obtain ⟨hstart, hempty⟩ := goOn_start line
  rw [advance, advance, hstart, hempty]
  dsimp only
  obtain hopen | ⟨hopen, hopen'⟩ := openMarks_start line.length (.ofText line)
  · rw [hopen]
  · rw [hopen, hopen']
    dsimp only
    rw [block_eq, block_eq, start_closeList]
    rfl

theorem meetsGap_start (line : List Char) : start.meetsGap line = empty.meetsGap line := by
  obtain ⟨hstart, hempty⟩ := goOn_start line
  rw [meetsGap, meetsGap, hstart, hempty]
  dsimp only
  obtain hopen | ⟨hopen, hopen'⟩ := openMarks_start line.length (.ofText line)
  · rw [hopen]
  · rw [hopen, hopen']

theorem readAll_start (lines : List (List Char)) :
    (start.readAll lines).finish = (empty.readAll lines).finish := by
  cases lines with
  | nil => rfl
  | cons line rest => rw [readAll_cons, readAll_cons, advance_start]

theorem gapsFrom_start (lines : List (List Char)) :
    start.gapsFrom lines = empty.gapsFrom lines := by
  cases lines with
  | nil => rfl
  | cons line rest => rw [gapsFrom_cons, gapsFrom_cons, advance_start, meetsGap_start]

theorem outline_eq (s : List Char) : outline s = (empty.readAll (linesOf s)).finish := rfl

end Outline

/-- Which lines of a text stand between blocks: they hold nothing but blanks and the marks of
containers, and no block goes on in them. -/
def gaps (s : List Char) : List Bool := Outline.empty.gapsFrom (linesOf s)

end Markdown
end Frontispiece
