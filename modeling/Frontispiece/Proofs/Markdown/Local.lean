import Frontispiece.Proofs.Markdown.Label

/-!
# Blocks before a gap

A block that ends before a gap is read the same whatever comes after the gap.

## What is here

* `IsGapped` — lines of which the first is a gap, if there is one.
* `IsLocal` — a reader of lines that, if it stops before a gap, depends on the lines before the gap
  only.  All readers of blocks are local: those of code, HTML, tables and paragraphs, and with
  them `Outline.block`.

The notion of being local is chosen so that it composes.  A reader that stops before a gap must have
come there by looking at the lines before the gap only; a reader that goes on through the gap is
asked nothing.  With this each kind of block can be treated by induction on the lines that it takes,
and the readers for all kinds are put together by cases without any knowledge of the others.
-/

set_option autoImplicit false

namespace Frontispiece
namespace Markdown

/-- Lines of which the first is a gap, if there is one. -/
structure IsGapped (lines : List (List Char)) : Prop where
  isLine : ∀ line ∈ lines, IsLine line
  head : ∀ line ∈ lines.head?, IsGap line

variable {α β : Type} {o : Outline} {t t' : List (List Char)}

namespace IsGapped

theorem nil : IsGapped [] := ⟨nofun, nofun⟩

/-- The first line of these lines is blank, if there is one. -/
theorem all_blankRest (ht : IsGapped t) : t.head?.all blankRest = true := by
  cases t with
  | nil => rfl
  | cons gap rest => exact (ht.head gap rfl).blankRest

/-- What the line after the first lines looks like. -/
theorem all_blankRest_append (ht : IsGapped t) (ht' : IsGapped t') (pre : List (List Char)) :
    (pre ++ t).head?.all blankRest = (pre ++ t').head?.all blankRest := by
  cases pre with
  | nil => exact ht.all_blankRest.trans ht'.all_blankRest.symm
  | cons line pre => rfl

end IsGapped

theorem IsGapped.startsWithGap (ht : IsGapped t) : StartsWithGap t.flatten := by
  cases t with
  | nil => exact .inl rfl
  | cons gap rest => exact .inr ⟨gap, rest.flatten, ht.head gap rfl, rfl⟩

/-- If `f` stops before a gap that comes after the lines `pre`, it depends on these lines only. -/
def IsLocalAt (f : List (List Char) → α × List (List Char)) (pre : List (List Char)) : Prop :=
  ∀ t, IsGapped t → t ≠ [] → t.length ≤ (f (pre ++ t)).2.length →
    ∃ a kept, kept <:+ pre ∧ ∀ t', IsGapped t' → f (pre ++ t') = (a, kept ++ t')

/-- A reader of lines that, if it stops before a gap, depends on the lines before the gap only. -/
def IsLocal (f : List (List Char) → α × List (List Char)) : Prop :=
  ∀ pre, (∀ line ∈ pre, IsLine line) → IsLocalAt f pre

namespace IsLocalAt

variable {f : List (List Char) → α × List (List Char)} {g : List (List Char) → β × List (List Char)}
  {line : List Char} {pre : List (List Char)}

/-- What is left after the lines is known. -/
theorem leaves {kept : List (List Char)} (a : α) (hkept : kept <:+ pre)
    (h : ∀ t, IsGapped t → f (pre ++ t) = (a, kept ++ t)) : IsLocalAt f pre :=
  fun _ _ _ _ => ⟨a, kept, hkept, h⟩

/-- All that comes is left. -/
theorem stops (a : α) (h : ∀ t, IsGapped t → f (pre ++ t) = (a, pre ++ t)) : IsLocalAt f pre :=
  leaves a (List.suffix_refl _) h

/-- A gap is read. -/
theorem reads (h : ∀ t, IsGapped t → t ≠ [] → (f t).2.length < t.length) : IsLocalAt f [] :=
  fun t ht hne hlength => absurd (h t ht hne) (Nat.not_lt.mpr hlength)

/-- A line is read and then no other. -/
theorem last (a : α) (h : ∀ t, IsGapped t → f (line :: (pre ++ t)) = (a, pre ++ t)) :
    IsLocalAt f (line :: pre) :=
  leaves a (List.suffix_cons _ _) h

/-- A line is read, and then more. -/
theorem goesOn (step : β → α) (hg : IsLocalAt g pre)
    (h : ∀ t, IsGapped t → f (line :: (pre ++ t)) = (step (g (pre ++ t)).1, (g (pre ++ t)).2)) :
    IsLocalAt f (line :: pre) := by
  intro t ht hne hlength
  rw [List.cons_append, h t ht] at hlength
  obtain ⟨b, kept, hkept, hsame⟩ := hg t ht hne hlength
  refine ⟨step b, kept, hkept.trans (List.suffix_cons _ _), fun t' ht' => ?_⟩
  rw [List.cons_append, h t' ht', hsame t' ht']

/-- What is read is looked at afterwards. -/
theorem map (step : β → α) (hg : IsLocalAt g pre)
    (h : ∀ t, IsGapped t → f (pre ++ t) = (step (g (pre ++ t)).1, (g (pre ++ t)).2)) :
    IsLocalAt f pre := by
  intro t ht hne hlength
  rw [h t ht] at hlength
  obtain ⟨b, kept, hkept, hsame⟩ := hg t ht hne hlength
  exact ⟨step b, kept, hkept, fun t' ht' => by rw [h t' ht', hsame t' ht']⟩

end IsLocalAt

namespace Outline

/-- A quote keeps out all gaps, and else no container does. -/
theorem inside?_of_isGapped (o : Outline) :
    (∀ t, IsGapped t → ∀ gap ∈ t.head?, ∃ l, o.inside? gap = some l ∧ IsGap l.rest) ∨
      ∀ t, IsGapped t → ∀ gap ∈ t.head?, o.inside? gap = none := by
  by_cases hplain : o.plainCount = o.opened.length
  · refine .inl fun t ht gap hgap => ?_
    have hinside := o.inside?_of_isGap (ht.head gap hgap)
    rwa [if_pos hplain] at hinside
  · refine .inr fun t ht gap hgap => ?_
    have hinside := o.inside?_of_isGap (ht.head gap hgap)
    rwa [if_neg hplain] at hinside

/-- Before a gap, a reader that leaves the lines outside the containers: it leaves the gaps inside
as well, or it reads them all. -/
theorem isLocalAt_nil {f : List (List Char) → α × List (List Char)} (a : α) (hnil : f [] = (a, []))
    (houtside : ∀ gap rest, o.inside? gap = none → f (gap :: rest) = (a, gap :: rest))
    (hinside : (∀ gap rest l, o.inside? gap = some l → IsGap l.rest →
        f (gap :: rest) = (a, gap :: rest)) ∨
      ∀ gap rest l, o.inside? gap = some l → IsGap l.rest →
        (f (gap :: rest)).2.length ≤ rest.length) : IsLocalAt f [] := by
  have hstops : (∀ gap rest, IsGapped (gap :: rest) → f (gap :: rest) = (a, gap :: rest)) →
      IsLocalAt f [] := by
    refine fun h => .stops a fun t ht => ?_
    cases t with
    | nil => exact hnil
    | cons gap rest => exact h gap rest ht
  obtain hgaps | hgaps := o.inside?_of_isGapped
  · obtain hleft | hread := hinside
    · refine hstops fun gap rest ht => ?_
      obtain ⟨l, hl, hgap⟩ := hgaps _ ht gap rfl
      exact hleft gap rest l hl hgap
    · refine .reads fun t ht hne => ?_
      obtain ⟨gap, rest, rfl⟩ := List.exists_cons_of_ne_nil hne
      obtain ⟨l, hl, hgap⟩ := hgaps _ ht gap rfl
      exact Nat.lt_succ_of_le (hread gap rest l hl hgap)
  · exact hstops fun gap rest ht => houtside gap rest (hgaps _ ht gap rfl)

/-! ## Code

Fenced code takes every line up to its closing fence, and gaps among them.  So it stops before a gap
only where the line leaves its containers.  Indented code takes gaps too, but blank lines at its end
are no part of it. -/

/-- Fenced code leaves no more lines than there were. -/
theorem fencedLines_length (o : Outline) (fence : Fence) (indent : Nat) (rest : List (List Char)) :
    (o.fencedLines fence indent rest).2.length ≤ rest.length := by
  induction rest with
  | nil => exact Nat.le_refl 0
  | cons line rest ih =>
    rw [fencedLines]
    cases o.inside? line with
    | none => exact Nat.le_refl _
    | some l =>
      dsimp only
      split
      · exact Nat.le_succ _
      · exact ih.trans (Nat.le_succ _)

/-- Fenced code stops at its closing fence, or at a line that is outside of the containers; if that
is before the gap, the gap has not been looked at. -/
theorem fencedLines_isLocal (o : Outline) (fence : Fence) (indent : Nat) :
    IsLocal (o.fencedLines fence indent) := by
  intro pre hpre
  induction pre with
  | nil =>
    refine isLocalAt_nil [] rfl (fun gap rest h => by rw [fencedLines, h])
      (.inr fun gap rest l hl _ => ?_)
    rw [fencedLines, hl]
    dsimp only
    split
    · exact Nat.le_refl _
    · exact o.fencedLines_length fence indent rest
  | cons line pre ih =>
    cases hline : o.inside? line with
    | none => exact .stops [] fun t _ => by rw [List.cons_append, fencedLines, hline]
    | some l =>
      by_cases hclosed : (decide (0 < ((l.take indent).1.take (4 - indent)).2)
          && fence.closedBy ((l.take indent).1.take (4 - indent)).1.rest) = true
      · refine .last [] fun t _ => ?_
        rw [fencedLines, hline]
        exact if_pos hclosed
      · refine .goesOn ((l.take indent).1.text ++ ·)
          (ih fun s hs => hpre s (List.mem_cons_of_mem _ hs)) fun t _ => ?_
        rw [fencedLines, hline]
        exact if_neg hclosed

/-- Indented code leaves no more lines than there were. -/
theorem indentedLines_length (o : Outline) (rest : List (List Char)) :
    (o.indentedLines rest).2.length ≤ rest.length := by
  induction rest with
  | nil => exact Nat.le_refl 0
  | cons line rest ih =>
    rw [indentedLines]
    cases o.inside? line with
    | none => exact Nat.le_refl _
    | some l =>
      dsimp only
      split
      · exact ih.trans (Nat.le_succ _)
      · exact Nat.le_refl _

/-- Indented code stops at the first line that is neither blank nor indented as far, or is outside
of the containers. -/
theorem indentedLines_isLocal (o : Outline) : IsLocal o.indentedLines := by
  intro pre hpre
  induction pre with
  | nil =>
    refine isLocalAt_nil [] rfl (fun gap rest h => by rw [indentedLines, h])
      (.inr fun gap rest l hl hgap => ?_)
    obtain ⟨hstart, hmissing⟩ := Line.take_isGap hgap 4
    rw [indentedLines, hl]
    dsimp only
    rw [if_pos]
    · exact o.indentedLines_length rest
    · rw [Bool.and_eq_true, Bool.or_eq_true, beq_iff_eq, Bool.not_eq_true',
        List.isEmpty_eq_false_iff]
      exact ⟨hmissing.imp_right fun hend => by rw [hend]; rfl, hstart.isLine.ne_nil⟩
  | cons line pre ih =>
    cases hline : o.inside? line with
    | none => exact .stops [] fun t _ => by rw [List.cons_append, indentedLines, hline]
    | some l =>
      by_cases hin : (((l.take 4).2 == 0 || atEnd (l.take 4).1.rest)
          && !(l.take 4).1.rest.isEmpty) = true
      · refine .goesOn (((l.take 4).1.text, blankRest (l.take 4).1.rest) :: ·)
          (ih fun s hs => hpre s (List.mem_cons_of_mem _ hs)) fun t _ => ?_
        rw [indentedLines, hline]
        exact if_pos hin
      · refine .stops [] fun t _ => ?_
        rw [List.cons_append, indentedLines, hline]
        exact if_neg hin

theorem indentedCode_isLocal (o : Outline) (first : List Char) : IsLocal (o.indentedCode first) :=
  fun pre hpre => (o.indentedLines_isLocal pre hpre).map (fun lines =>
    let code := List.dropWhile (fun line : List Char × Bool => line.2) lines.reverse
    Outline.add { o with blankBefore := code.length < lines.length }
      (.code none (first ++ (code.reverse.map (·.1)).flatten))) fun _ _ => rfl

/-! ## HTML

How a block of HTML ends is settled by its first line: at a mark in some line, or at a blank line.
In the first case the reader goes through gaps, in the second it stops before each. -/

/-- HTML leaves no more lines than there were. -/
theorem htmlLines_length (o : Outline) (stop : HtmlEnd) (line : List Char)
    (rest : List (List Char)) : (o.htmlLines stop line rest).2.length ≤ rest.length := by
  induction rest generalizing line with
  | nil => exact Nat.le_refl 0
  | cons next rest ih =>
    rw [htmlLines]
    cases o.inside? next with
    | none => exact Nat.le_refl _
    | some l =>
      cases stop with
      | mark text =>
        dsimp only
        split
        · exact Nat.le_refl _
        · exact (ih l.rest).trans (Nat.le_succ _)
      | blank =>
        dsimp only
        split
        · exact Nat.le_refl _
        · exact (ih l.rest).trans (Nat.le_succ _)

/-- Whether HTML stops before a line, of which `l` is left in its containers. -/
def htmlEnded (stop : HtmlEnd) (line : List Char) (l : Line) : Bool :=
  match stop with
  | .mark text => (Text.cutAt? text line).isSome
  | .blank => blankRest l.rest

theorem htmlLines_cons {stop : HtmlEnd} {line next : List Char} {rest : List (List Char)} {l : Line}
    (h : o.inside? next = some l) : o.htmlLines stop line (next :: rest)
      = if htmlEnded stop line l then ([], next :: rest)
        else (l.text ++ (o.htmlLines stop l.rest rest).1, (o.htmlLines stop l.rest rest).2) := by
  rw [htmlLines, h]
  cases stop with
  | mark text => rfl
  | blank => rfl

/-- Whether HTML stops before a gap inside its containers does not depend on the gap. -/
theorem htmlEnded_of_isGap {l l' : Line} (h : IsGap l.rest) (h' : IsGap l'.rest) (stop : HtmlEnd)
    (line : List Char) : htmlEnded stop line l = htmlEnded stop line l' := by
  cases stop with
  | mark text => rfl
  | blank => exact h.blankRest.trans h'.blankRest.symm

/-- HTML stops behind its closing mark or at a blank line, as the kind of HTML says, and either is
seen on a single line. -/
theorem htmlLines_isLocal (o : Outline) (stop : HtmlEnd) (line : List Char) :
    IsLocal (o.htmlLines stop line) := by
  intro pre hpre
  induction pre generalizing line with
  | nil =>
    refine isLocalAt_nil [] rfl (fun gap rest h => by rw [htmlLines, h]) ?_
    -- one gap tells whether all others stop the block
    have hgaps : ∀ l : Line, IsGap l.rest →
        htmlEnded stop line l = htmlEnded stop line (.ofText ['\n']) :=
      fun l hgap => htmlEnded_of_isGap hgap .stop stop line
    by_cases hended : htmlEnded stop line (.ofText ['\n']) = true
    · refine .inl fun gap rest l hl hgap => ?_
      rw [htmlLines_cons hl, hgaps l hgap, if_pos hended]
    · refine .inr fun gap rest l hl hgap => ?_
      rw [htmlLines_cons hl, hgaps l hgap, if_neg hended]
      exact o.htmlLines_length stop l.rest rest
  | cons next pre ih =>
    cases hnext : o.inside? next with
    | none => exact .stops [] fun t _ => by rw [List.cons_append, htmlLines, hnext]
    | some l =>
      by_cases hended : htmlEnded stop line l = true
      · exact .stops [] fun t _ => by rw [List.cons_append, htmlLines_cons hnext, if_pos hended]
      · exact .goesOn (l.text ++ ·) (ih l.rest fun s hs => hpre s (List.mem_cons_of_mem _ hs))
          fun t _ => by rw [htmlLines_cons hnext, if_neg hended]

/-! ## Tables and paragraphs

Both go on until a line interrupts them, and a gap does.  Whether an item interrupts a paragraph
depends on the line after it, so here the reader looks one line ahead. -/

theorem interrupts_congr {s : List Char} {next next' : Option (List Char)} {inside : Bool}
    (h : next.all blankRest = next'.all blankRest) :
    interrupts s next inside = interrupts s next' inside := by
  rw [interrupts, interrupts, h]

theorem interrupts_stop (next : Option (List Char)) (inside : Bool) :
    interrupts ['\n'] next inside = true := rfl

/-- A table stops at the first line that begins something else.  Whether a line does may depend on
the line after it, where a gap is like no line at all. -/
theorem tableRows_isLocal (o : Outline) (columns : Nat) : IsLocal (o.tableRows columns) := by
  intro pre hpre
  induction pre with
  | nil =>
    refine isLocalAt_nil [] rfl (fun gap rest h => by rw [tableRows, h])
      (.inl fun gap rest l hl hgap => ?_)
    rw [tableRows, hl]
    dsimp only
    rw [Line.unindented_of_isGap hgap, interrupts_stop, if_pos rfl]
  | cons line pre ih =>
    cases hline : o.inside? line with
    | none => exact .stops [] fun t _ => by rw [List.cons_append, tableRows, hline]
    | some l =>
      -- whether a line is a row depends on whether the next is blank, and a gap is
      have hnext : ∀ t, IsGapped t → interrupts l.unindented (pre ++ t).head? true
          = interrupts l.unindented (pre ++ []).head? true :=
        fun t ht => interrupts_congr (ht.all_blankRest_append .nil pre)
      by_cases hstop : interrupts l.unindented (pre ++ []).head? true = true
      · refine .stops [] fun t ht => ?_
        rw [List.cons_append, tableRows, hline]
        dsimp only
        rw [hnext t ht, if_pos hstop]
      · refine .goesOn (cells columns l.unindented :: ·)
          (ih fun s hs => hpre s (List.mem_cons_of_mem _ hs)) fun t ht => ?_
        rw [tableRows, hline]
        dsimp only
        rw [hnext t ht, if_neg hstop]

/-- The rows of a table leave no more lines than there were. -/
theorem tableRows_length (o : Outline) (columns : Nat) (rest : List (List Char)) :
    (o.tableRows columns rest).2.length ≤ rest.length := by
  induction rest with
  | nil => exact Nat.le_refl 0
  | cons line rest ih =>
    rw [tableRows]
    cases o.inside? line with
    | none => exact Nat.le_refl _
    | some l =>
      dsimp only
      split
      · exact Nat.le_refl _
      · exact ih.trans (Nat.le_succ _)

/-- The level of the heading that a paragraph is if a line comes after it. -/
def lineLevel? (o : Outline) (line : List Char) : Option Nat :=
  let (n, l) := o.enter line
  let (start, missing) := l.take 4
  if 0 < missing && n == o.opened.length then underline? start.rest else none

/-- Whether a paragraph ends before a line. -/
def endsParagraph (o : Outline) (line : List Char) (next : Option (List Char)) : Bool :=
  let (n, l) := o.enter line
  let (start, missing) := l.take 4
  (0 < missing && interrupts start.rest next (n == o.opened.length)) || atEnd l.unindented

theorem paragraphLines_cons (o : Outline) (line : List Char) (rest : List (List Char)) :
    o.paragraphLines (line :: rest)
      = if (o.lineLevel? line).isSome then ([], o.lineLevel? line, rest)
        else if o.endsParagraph line rest.head? then ([], none, line :: rest)
        else ((o.enter line).2.rest :: (o.paragraphLines rest).1, (o.paragraphLines rest).2.1,
          (o.paragraphLines rest).2.2) := rfl

/-- The lines of a paragraph leave no more lines than there were. -/
theorem paragraphLines_length (o : Outline) (rest : List (List Char)) :
    (o.paragraphLines rest).2.2.length ≤ rest.length := by
  induction rest with
  | nil => exact Nat.le_refl 0
  | cons line rest ih =>
    rw [paragraphLines_cons]
    split
    · exact Nat.le_succ _
    · split
      · exact Nat.le_refl _
      · exact ih.trans (Nat.le_succ _)

theorem underline?_of_isGap {s : List Char} (h : IsGap s) : underline? s = none := by
  cases h with
  | stop => rfl
  | cons hc _ =>
    obtain rfl | rfl := hc
    · rfl
    · rfl

theorem lineLevel?_of_isGap {gap : List Char} (h : IsGap gap) : o.lineLevel? gap = none := by
  have hstart := (Line.take_isGap (o.enter_of_isGap h).2 4).1
  change (if _ then underline? ((o.enter gap).2.take 4).1.rest else none) = none
  rw [underline?_of_isGap hstart, ite_self]

theorem endsParagraph_of_isGap {gap : List Char} (h : IsGap gap) (next : Option (List Char)) :
    o.endsParagraph gap next = true := by
  change (_ || atEnd (o.enter gap).2.unindented) = true
  rw [Line.unindented_of_isGap (o.enter_of_isGap h).2]
  exact Bool.or_true _

theorem endsParagraph_congr {line : List Char} {next next' : Option (List Char)}
    (h : next.all blankRest = next'.all blankRest) :
    o.endsParagraph line next = o.endsParagraph line next' := by
  rw [endsParagraph, endsParagraph]
  dsimp only
  rw [interrupts_congr h]

/-- A paragraph stops at an underline, or at a line that interrupts it; the underline goes with the
paragraph. -/
theorem paragraphLines_isLocal (o : Outline) :
    IsLocal fun rest => (((o.paragraphLines rest).1, (o.paragraphLines rest).2.1),
      (o.paragraphLines rest).2.2) := by
  intro pre hpre
  induction pre with
  | nil =>
    refine .stops ([], none) fun t ht => ?_
    cases t with
    | nil => rfl
    | cons gap rest =>
      have hgap := ht.head gap rfl
      rw [List.nil_append, paragraphLines_cons, lineLevel?_of_isGap hgap, if_neg (by decide),
        endsParagraph_of_isGap hgap, if_pos rfl]
  | cons line pre ih =>
    have hnext : ∀ t, IsGapped t → o.endsParagraph line (pre ++ t).head?
        = o.endsParagraph line (pre ++ []).head? :=
      fun t ht => endsParagraph_congr (ht.all_blankRest_append .nil pre)
    by_cases hlevel : (o.lineLevel? line).isSome = true
    · exact .last ([], o.lineLevel? line) fun t _ => by rw [paragraphLines_cons, if_pos hlevel]
    · by_cases hend : o.endsParagraph line (pre ++ []).head? = true
      · refine .stops ([], none) fun t ht => ?_
        rw [List.cons_append, paragraphLines_cons, if_neg hlevel, hnext t ht, if_pos hend]
      · refine .goesOn (fun read => ((o.enter line).2.rest :: read.1, read.2))
          (ih fun s hs => hpre s (List.mem_cons_of_mem _ hs)) fun t ht => ?_
        rw [paragraphLines_cons, if_neg hlevel, hnext t ht, if_neg hend]

theorem delimiterRow?_of_isGap {l : Line} (h : IsGap l.rest) : delimiterRow? l = none := by
  have hstart := (Line.take_isGap h 4).1
  rw [delimiterRow?]
  generalize l.take 4 = taken at hstart
  obtain ⟨start, missing⟩ := taken
  cases missing with
  | zero => rfl
  | succ missing => exact if_neg (by rw [hstart.contains_pipe, Bool.false_and]; decide)

/-- A table needs a second line. -/
theorem table?_of_isGapped (ht : IsGapped t) (header : List Char) : o.table? header t = none := by
  cases t with
  | nil => rfl
  | cons gap rest =>
    rw [table?]
    split
    · rfl
    · obtain hinside | hinside := o.inside?_of_isGapped
      · obtain ⟨l, hl, hgap⟩ := hinside _ ht gap rfl
        rw [hl, Option.bind_some, delimiterRow?_of_isGap hgap]
      · rw [hinside _ ht gap rfl]
        rfl

/-- The columns of a table whose delimiter row a line is. -/
def columns? (o : Outline) (header line : List Char) : Option (List Align) :=
  if pipes ' ' header == 0 then none
  else
    match (o.inside? line).bind delimiterRow? with
    | none => none
    | some columns => if columns.length == headerCells header then some columns else none

/-- A table is its header and the rows below the delimiter row, if the line after the header is
one. -/
theorem table?_cons (o : Outline) (header line : List Char) (rest : List (List Char)) :
    o.table? header (line :: rest) = (o.columns? header line).map fun columns =>
      (.table columns (cells columns.length header) (o.tableRows columns.length rest).1,
        (o.tableRows columns.length rest).2) := by
  rw [table?, columns?]
  split
  · rfl
  · cases (o.inside? line).bind delimiterRow? with
    | none => rfl
    | some columns =>
      dsimp only
      split
      · rfl
      · rfl

/-- The state without the checkbox that goes to the next paragraph. -/
def taskless (o : Outline) : Outline := { o with task := none }

/-- The state after a paragraph or a heading. -/
def addParagraph (o : Outline) (first : List Char) (read : List (List Char) × Option Nat) :
    Outline :=
  let content := Text.dropTrailing isAsciiBlank (first ++ read.1.flatten)
  match read.2 with
  | some level => o.taskless.add (.heading level content)
  | none => o.taskless.add (.paragraph o.task content)

theorem paragraph_of_table {first : List Char} {rest after : List (List Char)} {table : RawBlock}
    (h : o.taskless.table? first rest = some (table, after)) :
    o.paragraph first rest = (o.taskless.add table, after) := by
  rw [taskless] at h
  rw [paragraph, h]
  rfl

/-- Without a table, the lines of a paragraph are read and put together with the first. -/
theorem paragraph_of_lines {first : List Char} {rest : List (List Char)}
    (h : o.taskless.table? first rest = none) :
    o.paragraph first rest = (o.addParagraph first
        ((o.taskless.paragraphLines rest).1, (o.taskless.paragraphLines rest).2.1),
      (o.taskless.paragraphLines rest).2.2) := by
  rw [taskless] at h
  rw [paragraph, addParagraph, taskless, h]
  dsimp only
  generalize Outline.paragraphLines _ rest = read
  obtain ⟨lines, level, after⟩ := read
  cases level with
  | none => rfl
  | some level => rfl

/-- So a table, a paragraph or a heading is local, whichever of them it is. -/
theorem paragraph_isLocal (o : Outline) (first : List Char) : IsLocal (o.paragraph first) := by
  intro pre hpre
  have hlines : (∀ t, IsGapped t → o.taskless.table? first (pre ++ t) = none) →
      IsLocalAt (o.paragraph first) pre := fun h =>
    (o.taskless.paragraphLines_isLocal pre hpre).map (o.addParagraph first)
      fun t ht => paragraph_of_lines (h t ht)
  cases pre with
  | nil => exact hlines fun t ht => table?_of_isGapped ht first
  | cons line pre =>
    cases hcolumns : o.taskless.columns? first line with
    | none => exact hlines fun t _ => by rw [List.cons_append, table?_cons, hcolumns]; rfl
    | some columns =>
      refine (o.taskless.tableRows_isLocal columns.length pre
        fun s hs => hpre s (List.mem_cons_of_mem _ hs)).goesOn (fun rows => o.taskless.add
          (.table columns (cells columns.length first) rows)) fun t _ => ?_
      exact paragraph_of_table (by rw [table?_cons, hcolumns]; rfl)

/-! ## Definitions

A definition is read from the texts of all lines that follow, joined together, and only then is it
counted how many of them it took.  So the lemmas compare two joined texts, one with the gap and one
with another. -/

/-- The texts of the lines that are in all open containers. -/
def innerTexts (o : Outline) (rest : List (List Char)) : List (List Char) :=
  ((rest.map o.inside?).takeWhile Option.isSome).filterMap fun l => l.map Line.text

theorem innerTexts_cons (o : Outline) (line : List Char) (rest : List (List Char)) :
    o.innerTexts (line :: rest) = match o.inside? line with
      | some l => l.text :: o.innerTexts rest
      | none => [] := by
  rw [innerTexts, List.map_cons]
  cases o.inside? line with
  | none => rfl
  | some l => rfl

/-- No line gives more than one text inside of the containers. -/
theorem innerTexts_length (o : Outline) (rest : List (List Char)) :
    (o.innerTexts rest).length ≤ rest.length := by
  induction rest with
  | nil => exact Nat.le_refl 0
  | cons line rest ih =>
    rw [innerTexts_cons]
    cases o.inside? line with
    | none => exact Nat.zero_le _
    | some l => exact Nat.succ_le_succ ih

/-- The texts inside of the containers are lines, because the lines around them are. -/
theorem innerTexts_isLine {rest : List (List Char)} (hrest : ∀ line ∈ rest, IsLine line) :
    ∀ text ∈ o.innerTexts rest, IsLine text := by
  induction rest with
  | nil => nofun
  | cons line rest ih =>
    rw [innerTexts_cons]
    cases hline : o.inside? line with
    | none => nofun
    | some l =>
      intro text htext
      obtain rfl | htext := List.mem_cons.mp htext
      · exact Line.text_isLine (inside?_isLine (hrest line List.mem_cons_self) hline)
      · exact ih (fun s hs => hrest s (List.mem_cons_of_mem _ hs)) text htext

/-- The texts of lines before a gap, and what comes after them. -/
theorem innerTexts_append (pre : List (List Char)) (ht : IsGapped t) :
    ∃ texts, o.innerTexts (pre ++ t) = o.innerTexts pre ++ texts ∧ IsGapped texts := by
  induction pre with
  | nil =>
    refine ⟨o.innerTexts t, rfl, innerTexts_isLine ht.isLine, ?_⟩
    cases t with
    | nil => nofun
    | cons gap rest =>
      intro text htext
      obtain hinside | hinside := o.inside?_of_isGapped
      · obtain ⟨l, hl, hgap⟩ := hinside _ ht gap rfl
        rw [innerTexts_cons, hl] at htext
        cases htext
        exact Line.text_isGap hgap
      · rw [innerTexts_cons, hinside _ ht gap rfl] at htext
        cases htext
  | cons line pre ih =>
    rw [List.cons_append, innerTexts_cons, innerTexts_cons]
    cases o.inside? line with
    | none => exact ⟨[], rfl, .nil⟩
    | some l =>
      obtain ⟨texts, htexts, hgapped⟩ := ih
      exact ⟨texts, congrArg (l.text :: ·) htexts, hgapped⟩

/-- How many lines the label and the title of a definition may go over. -/
def definitionLimit (texts : List (List Char)) : Nat :=
  (texts.takeWhile fun s => !interrupts (s.dropWhile isLineBlank) none true).length + 1

/-- The state and the lines after a definition that was found among texts. -/
def define (o : Outline) (texts rest : List (List Char)) (d : List Char × Target × List Char) :
    Outline × List (List Char) :=
  ({ o with definitions := o.definitions.define d.1 d.2.1 },
    rest.drop (texts.length - (linesOf d.2.2).length))

theorem definition?_bracket {first : List Char} {rest : List (List Char)}
    (h : first.head? = some '[') : o.definition? first rest
      = (Markdown.definition? (definitionLimit (o.innerTexts rest))
          (first ++ (o.innerTexts rest).flatten)).map (o.define (o.innerTexts rest) rest) := by
  rw [definition?, if_pos (by rw [h]; rfl)]
  rfl

theorem definition?_suffix {first : List Char} {rest : List (List Char)}
    {found : Outline × List (List Char)} (h : o.definition? first rest = some found) :
    found.2 <:+ rest := by
  rw [definition?] at h
  split at h
  · obtain ⟨d, -, rfl⟩ := Option.map_eq_some_iff.mp h
    exact List.drop_suffix _ _
  · cases h

/-- A gap ends the lines that a definition may go over, so that those behind it do not count. -/
theorem definitionLimit_append {texts gapped : List (List Char)} (h : IsGapped gapped) :
    definitionLimit (texts ++ gapped) = definitionLimit texts := by
  rw [definitionLimit, definitionLimit]
  congr 2
  induction texts with
  | nil =>
    cases gapped with
    | nil => rfl
    | cons gap rest =>
      refine List.takeWhile_cons_of_neg ?_
      rw [(h.head gap rfl).dropWhile (by decide) (by decide) (by decide), interrupts_stop]
      decide
  | cons text texts ih => rw [List.cons_append, List.takeWhile_cons, List.takeWhile_cons, ih]

theorem definitionLimit_le (texts : List (List Char)) :
    definitionLimit texts ≤ texts.length + 1 :=
  Nat.succ_le_succ (List.takeWhile_sublist _).length_le

/-- The lines of what comes after a definition. -/
theorem length_linesOf_append {s : List Char} {texts : List (List Char)}
    (hs : s = [] ∨ IsEnded s) (htexts : ∀ text ∈ texts, IsLine text) :
    (linesOf (s ++ texts.flatten)).length = (linesOf s).length + texts.length := by
  obtain rfl | hs := hs
  · rw [List.nil_append, linesOf_flatten htexts]
    exact (Nat.zero_add _).symm
  · rw [linesOf, linesFrom_append hs, ← linesOf, ← linesOf, linesOf_flatten htexts,
      List.length_append]

/-- A definition is found before a gap or is not there, whatever comes after the gap. -/
theorem definition?_append {first : List Char} (hfirst : IsLine first) {pre : List (List Char)}
    (hpre : ∀ line ∈ pre, IsLine line) (ht : IsGapped t) :
    o.definition? first (pre ++ t)
      = (o.definition? first pre).map fun found => (found.1, found.2 ++ t) := by
  by_cases hbracket : first.head? = some '['
  · obtain ⟨texts, htexts, hgapped⟩ := o.innerTexts_append pre ht
    have hinner := innerTexts_isLine (o := o) hpre
    have hended : IsEnded (first ++ (o.innerTexts pre).flatten) :=
      hfirst.isEnded.append_flatten hinner
    have hlimit : definitionLimit (o.innerTexts pre)
        ≤ (first ++ (o.innerTexts pre).flatten).count '\n' := by
      refine (definitionLimit_le _).trans ?_
      rw [List.count_append, hfirst.count_feed, count_feed_flatten hinner, Nat.add_comm]
    rw [definition?_bracket hbracket, definition?_bracket hbracket, htexts,
      definitionLimit_append hgapped, List.flatten_append, ← List.append_assoc,
      Markdown.definition?_append hended hlimit hgapped.startsWithGap]
    cases hd : Markdown.definition? (definitionLimit (o.innerTexts pre))
      (first ++ (o.innerTexts pre).flatten) with
    | none => rfl
    | some d =>
      have hlines := length_linesOf_append (definition?_found hended hd) hgapped.isLine
      have hle := o.innerTexts_length pre
      simp only [Option.map_some, define, withRest, hlines, List.length_append]
      rw [Nat.add_sub_add_right, List.drop_append_of_le_length (by omega)]
  · have hne : ¬(first.head? == some '[') = true := by simpa using hbracket
    rw [definition?, definition?, if_neg hne, if_neg hne]
    rfl

/-! ## Blocks

The block that a line starts is found by trying the kinds of blocks in turn.  All of them are local
by the sections above, and which one it is does not depend on what comes after a gap. -/

/-- How the block of HTML ends that a line starts. -/
def htmlStop? (s : List Char) : Option HtmlEnd :=
  if s.head? == some '<' then htmlBlock? (s.drop 1) else none

/-- The block that a line starts that is not indented code, where `places` is its indentation as
HTML and `indent` that as code. -/
def textBlock (o : Outline) (s : List Char) (places indent : Nat) (rest : List (List Char)) :
    Outline × List (List Char) :=
  match htmlStop? s with
  | some stop =>
    (o.add (.html (List.replicate places ' ' ++ s ++ (o.htmlLines stop s rest).1)),
      (o.htmlLines stop s rest).2)
  | none =>
    if isRule s then (o.add .rule, rest)
    else
      match headingLevel? s with
      | some level => (o.add (.heading level (headingText (s.drop level))), rest)
      | none =>
        match fence? s with
        | some fence =>
          (o.add (.code (some (unescape fence.info)) (o.fencedLines fence indent rest).1),
            (o.fencedLines fence indent rest).2)
        | none =>
          match o.definition? s rest with
          | some (o, after) => (o, after)
          | none => o.paragraph s rest

theorem block_eq (o : Outline) (l : Line) (rest : List (List Char)) :
    o.block l rest = if (l.take 4).2 == 0 then o.closeList.indentedCode (l.take 4).1.text rest
      else o.closeList.textBlock (l.take 4).1.rest (max l.owed (4 - (l.take 4).2))
        (4 - (l.take 4).2) rest := rfl

/-- **A block of text is local**, of whatever kind it is. -/
theorem textBlock_isLocal {s : List Char} (hs : IsLine s) (o : Outline) (places indent : Nat) :
    IsLocal (o.textBlock s places indent) := by
  intro pre hpre
  -- the kinds of blocks are tried in turn, and each of them either stands on this line alone or
  -- reads on by a loop that is local
  cases hhtml : htmlStop? s with
  | some stop =>
    refine (o.htmlLines_isLocal stop s pre hpre).map
      (fun html => o.add (.html (List.replicate places ' ' ++ s ++ html))) fun t _ => ?_
    rw [textBlock, hhtml]
  | none =>
    by_cases hrule : isRule s = true
    · exact .stops (o.add .rule) fun t _ => by rw [textBlock, hhtml]; exact if_pos hrule
    · cases hheading : headingLevel? s with
      | some level =>
        refine .stops (o.add (.heading level (headingText (s.drop level)))) fun t _ => ?_
        rw [textBlock, hhtml, hheading]
        exact if_neg hrule
      | none =>
        cases hfence : fence? s with
        | some fence =>
          refine (o.fencedLines_isLocal fence indent pre hpre).map
            (fun code => o.add (.code (some (unescape fence.info)) code)) fun t _ => ?_
          rw [textBlock, hhtml, hheading, hfence]
          exact if_neg hrule
        | none =>
          -- nothing else has matched: a definition, or text
          have hblock : ∀ rest, o.textBlock s places indent rest
              = match o.definition? s rest with
                | some (o, after) => (o, after)
                | none => o.paragraph s rest := by
            intro rest
            rw [textBlock, hhtml, hheading, hfence]
            exact if_neg hrule
          cases hdefinition : o.definition? s pre with
          | some found =>
            refine .leaves found.1 (definition?_suffix hdefinition) fun t ht => ?_
            rw [hblock, definition?_append hs hpre ht, hdefinition]
            rfl
          | none =>
            refine (o.paragraph_isLocal s pre hpre).map id fun t ht => ?_
            rw [hblock, definition?_append hs hpre ht, hdefinition]
            rfl

/-- A block is local; indented code is the only one that is not a block of text. -/
theorem block_isLocal {l : Line} (hl : IsLine l.rest) (o : Outline) : IsLocal (o.block l) := by
  intro pre hpre
  by_cases hcode : ((l.take 4).2 == 0) = true
  · exact (o.closeList.indentedCode_isLocal (l.take 4).1.text pre hpre).map id fun t _ => by
      rw [block_eq, if_pos hcode]
      rfl
  · exact (textBlock_isLocal (Line.take_isLine hl 4) o.closeList _ _ pre hpre).map id fun t _ => by
      rw [block_eq, if_neg hcode]
      rfl

/-- A paragraph leaves no more lines than there were. -/
theorem paragraph_length (o : Outline) (first : List Char) (rest : List (List Char)) :
    (o.paragraph first rest).2.length ≤ rest.length := by
  cases htable : o.taskless.table? first rest with
  | none =>
    rw [paragraph_of_lines htable]
    exact o.taskless.paragraphLines_length rest
  | some found =>
    obtain ⟨table, after⟩ := found
    rw [paragraph_of_table htable]
    cases rest with
    | nil => cases htable
    | cons line rest =>
      rw [table?_cons] at htable
      obtain ⟨columns, -, hrows⟩ := Option.map_eq_some_iff.mp htable
      cases hrows
      exact (o.taskless.tableRows_length columns.length rest).trans (Nat.le_succ _)

/-- A block leaves no more lines than there were, so that reading blocks one after the other comes
to an end. -/
theorem block_length (o : Outline) (l : Line) (rest : List (List Char)) :
    (o.block l rest).2.length ≤ rest.length := by
  rw [block_eq]
  split
  · exact o.closeList.indentedLines_length rest
  · rw [textBlock]
    split
    · next stop _ => exact o.closeList.htmlLines_length stop _ rest
    · split
      · exact Nat.le_refl _
      · split
        · exact Nat.le_refl _
        · split
          · next fence _ => exact o.closeList.fencedLines_length fence _ rest
          · split
            · next o' after hdefinition => exact (definition?_suffix hdefinition).length_le
            · exact o.closeList.paragraph_length _ rest

end Outline

end Markdown
end Frontispiece
