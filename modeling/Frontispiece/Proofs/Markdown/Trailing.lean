import Frontispiece.Proofs.Markdown.Reading
import Frontispiece.Proofs.Text.Pieces

/-!
# Blanks at the end of a line

A paragraph drops the blanks at the end of its text, and so does a heading.  It takes a proof all
the same that blanks at the end of a line do not matter there, since the reader looks at a line in
many ways before it takes it for text: it may be a rule, a table, a definition, or the start of a
list.

## What is here

* `isInner`, `isPlain` — the characters that open no container, and those that open no block either.
* `Line.indented` — a line that starts with up to three spaces and such a character.  Open
  containers take from its spaces (`enter_indented`), and its marks open nothing
  (`openMarks_indented`).
* `enter_plain`, `advance_plain` — a plain line stays one inside the open containers, and such lines
  are a paragraph up to a gap.
* `headingText_spaces` — a heading loses the spaces at its end with its line feed.
* `readAll_paragraph`, `readAll_heading` — blanks at the end of a paragraph, and at the end of a
  heading, change nothing of what is read.

The lemmas say what is done with a line whatever comes after its first character.  That is why a
line with blanks at its end can be compared with the same line without them: up to the point where
its text is taken, the reader has not seen the difference.
-/

set_option autoImplicit false

namespace Frontispiece
namespace Markdown

/-- Whether a character at the start of a line opens no container: it is no blank, no digit, and no
mark of a quote or an item. -/
def isInner (c : Char) : Bool :=
  !Text.isBlank c && !c.isDigit && !(['>', '-', '+', '*'].contains c)

/-- Whether a character at the start of a line opens nothing at all, so that it is a paragraph. -/
def isPlain (c : Char) : Bool :=
  isInner c && !(['#', '<', '[', '\x60', '~', '_', '=', '|', ':'].contains c)

/-- Whether a line has at most three spaces before a text of some sort. -/
def isIndented (p : List Char → Bool) (line : List Char) : Bool :=
  let s := line.dropWhile (· == ' ')
  line.length ≤ s.length + 3 && p s

/-- Whether a line starts with a character that opens nothing. -/
def isPlainLine (line : List Char) : Bool :=
  isIndented (fun s => s.head?.any isPlain) line

/-- Whether a line is a heading by its marks. -/
def isHeadingLine (line : List Char) : Bool :=
  isIndented (fun s => s.head? == some '#' && (headingLevel? s).isSome) line

variable {s line : List Char} {c : Char}

/-- The spaces and the text of such a line. -/
theorem isIndented_iff {p : List Char → Bool} (hp : ∀ s, p s = true → s.head? ≠ some ' ') :
    isIndented p line = true
      ↔ ∃ k s, k ≤ 3 ∧ p s = true ∧ line = List.replicate k ' ' ++ s := by
  rw [isIndented, Bool.and_eq_true, decide_eq_true_iff]
  constructor
  · rintro ⟨hlength, hs⟩
    -- the spaces in front are the longest prefix of spaces
    have hspaces : line.takeWhile (· == ' ')
        = List.replicate (line.takeWhile (· == ' ')).length ' ' :=
      List.eq_replicate_of_mem fun c hc => by simpa using List.mem_takeWhile_imp hc
    have hline := List.takeWhile_append_dropWhile (p := (· == ' ')) (l := line)
    have hsum := congrArg List.length hline
    rw [List.length_append] at hsum
    exact ⟨(line.takeWhile (· == ' ')).length, line.dropWhile (· == ' '), by omega, hs,
      by rw [← hspaces, hline]⟩
  · rintro ⟨k, s, hk, hs, rfl⟩
    have hrest : (List.replicate k ' ' ++ s).dropWhile (· == ' ') = s := by
      rw [List.dropWhile_append_of_pos (by simp)]
      cases s with
      | nil => rfl
      | cons c s =>
        refine List.dropWhile_cons_of_neg fun hc => hp _ hs ?_
        rw [beq_iff_eq.1 hc]
        rfl
    rw [hrest]
    exact ⟨by simp; omega, hs⟩

theorem isInner_of_isPlain (h : isPlain c = true) : isInner c = true :=
  (Bool.and_eq_true_iff.1 h).1

theorem isInner_iff : isInner c = true ↔ Text.isBlank c = false ∧ c.isDigit = false ∧ c ≠ '>' ∧
    c ≠ '-' ∧ c ≠ '+' ∧ c ≠ '*' := by
  simp [isInner, and_assoc]

theorem isAsciiBlank_of_isInner (h : isInner c = true) : isAsciiBlank c = false := by
  have hblank := (isInner_iff.1 h).1
  rw [← Bool.not_eq_true, isAsciiBlank, isLineBlank]
  simp only [Bool.or_eq_true, beq_iff_eq]
  rintro (((((rfl | rfl) | rfl) | rfl) | rfl) | rfl) <;> cases hblank

/-- The blanks that such a character is not. -/
theorem ne_of_isInner (h : isInner c = true) : c ≠ ' ' ∧ c ≠ '\t' ∧ c ≠ '\n' := by
  have hblank := isAsciiBlank_of_isInner h
  refine ⟨?_, ?_, ?_⟩ <;> rintro rfl <;> cases hblank

theorem isPlain_iff : isPlain c = true ↔ isInner c = true ∧ c ≠ '#' ∧ c ≠ '<' ∧ c ≠ '[' ∧
    c ≠ '\x60' ∧ c ≠ '~' ∧ c ≠ '_' ∧ c ≠ '=' ∧ c ≠ '|' ∧ c ≠ ':' := by
  simp [isPlain]

/-- A plain line is up to three spaces and a text that starts with a plain character. -/
theorem isPlainLine_iff : isPlainLine line = true
    ↔ ∃ k c s, k ≤ 3 ∧ isPlain c = true ∧ line = List.replicate k ' ' ++ c :: s := by
  rw [isPlainLine, isIndented_iff]
  · constructor
    · rintro ⟨k, s, hk, hs, rfl⟩
      cases s with
      | nil => cases hs
      | cons c s => exact ⟨k, c, s, hk, hs, rfl⟩
    · rintro ⟨k, c, s, hk, hc, rfl⟩
      exact ⟨k, c :: s, hk, hc, rfl⟩
  · intro s hs hspace
    rw [hspace] at hs
    exact absurd hs (by decide)

/-- A heading line is up to three spaces and a text that starts with the marks of a level. -/
theorem isHeadingLine_iff : isHeadingLine line = true ↔ ∃ k s, k ≤ 3 ∧
    (headingLevel? ('#' :: s)).isSome = true ∧ line = List.replicate k ' ' ++ '#' :: s := by
  rw [isHeadingLine, isIndented_iff]
  · constructor
    · rintro ⟨k, s, hk, hs, rfl⟩
      rw [Bool.and_eq_true, beq_iff_eq] at hs
      obtain ⟨t, rfl⟩ := List.head?_eq_some_iff.1 hs.1
      exact ⟨k, t, hk, hs.2, rfl⟩
    · rintro ⟨k, s, hk, hs, rfl⟩
      exact ⟨k, '#' :: s, hk, hs, rfl⟩
  · intro s hs hspace
    rw [hspace] at hs
    cases hs

/-! ## Lines with a little indentation

The spaces in front of a line are looked at by the open containers, which may take some of them.
Nothing of this depends on the text behind the spaces. -/

namespace Line

/-- A line of `k` spaces and a text. -/
def indented (column k : Nat) (s : List Char) : Line := ⟨List.replicate k ' ' ++ s, 0, column⟩

/-- Spaces are taken as far as there are any. -/
theorem takeFrom_indented (hc : isInner c = true) (n k column : Nat) :
    takeFrom n (List.replicate k ' ' ++ c :: s) column
      = (indented (column + min n k) (k - n) (c :: s), n - k) := by
  -- by the spaces, of which each is one column
  induction k generalizing n column with
  | zero =>
    obtain ⟨hspace, htab, -⟩ := ne_of_isInner hc
    rw [List.replicate_zero, List.nil_append, takeFrom]
    cases n with
    | zero => rfl
    | succ n => simp [indented, hspace, htab]
  | succ k ih =>
    rw [List.replicate_succ, List.cons_append, takeFrom]
    cases n with
    | zero => simp [indented, List.replicate_succ]
    | succ n =>
      rw [if_neg (by simp), if_pos (by simp), Nat.add_sub_cancel, ih]
      simp only [Nat.add_sub_add_right, Nat.add_min_add_right, Prod.mk.injEq, and_true]
      congr 1
      omega

/-- A container that wants `n` columns gets as many of them as there are spaces, since a character
that is no blank cannot be taken. -/
theorem take_indented (hc : isInner c = true) (n k column : Nat) :
    (indented column k (c :: s)).take n
      = (indented (column + min n k) (k - n) (c :: s), n - k) := by
  rw [take]
  split
  · next hzero =>
    obtain rfl : n = 0 := Nat.le_zero.1 hzero
    simp [indented]
  · exact takeFrom_indented hc n k column

/-- The four columns that would make a line code are not there, and no space is left of those that
are. -/
theorem take_four (hc : isInner c = true) (column : Nat) {k : Nat} (hk : k ≤ 3) :
    (indented column k (c :: s)).take 4 = (indented (column + k) 0 (c :: s), 4 - k) := by
  rw [take_indented hc, Nat.min_eq_right (by omega), Nat.sub_eq_zero_of_le (by omega)]

theorem head?_indented (column k : Nat) : (indented column k (c :: s)).rest.head?
    = some (if k = 0 then c else ' ') := by
  cases k <;> rfl

/-- Such a line is not in a quote, whichever of its spaces are taken first. -/
theorem quoteMark?_indented (hc : isInner c = true) (column k : Nat) :
    (indented column k (c :: s)).quoteMark? = none := by
  obtain ⟨-, -, hquote, -⟩ := isInner_iff.1 hc
  rw [quoteMark?, take_indented hc]
  dsimp only
  rw [head?_indented, if_neg]
  rw [Bool.and_eq_true, beq_iff_eq, beq_iff_eq, Option.some.injEq]
  rintro ⟨-, h⟩
  split at h
  · exact hquote h
  · cases h

theorem atEnd_indented (hc : isInner c = true) (column k : Nat) :
    atEnd (indented column k (c :: s)).rest = false := by
  have hfeed := (ne_of_isInner hc).2.2
  cases k with
  | zero => simpa [atEnd, indented] using hfeed
  | succ k => rfl

/-- The text of such a line is what stands behind its spaces. -/
theorem unindented_indented (hc : isInner c = true) (column k : Nat) :
    (indented column k (c :: s)).unindented = c :: s := by
  obtain ⟨hspace, htab, -⟩ := ne_of_isInner hc
  induction k with
  | zero => simp [unindented, indented, hspace, htab]
  | succ k ih => simpa [unindented, indented, List.replicate_succ] using ih

theorem blankRest_indented (hc : isInner c = true) (column k : Nat) :
    blankRest (indented column k (c :: s)).rest = false := by
  have hfeed := (ne_of_isInner hc).2.2
  have hblank : isLineBlank c = false :=
    (Bool.or_eq_false_iff.1 (Bool.or_eq_false_iff.1 (isAsciiBlank_of_isInner hc)).1).1
  have hrest : (List.replicate k ' ' ++ c :: s).dropWhile isLineBlank = c :: s := by
    rw [List.dropWhile_append_of_pos (by simp [isLineBlank])]
    exact List.dropWhile_cons_of_neg (by simp [hblank])
  rw [blankRest, indented, hrest]
  simpa [atEnd] using hfeed

theorem isRule_inner (hc : isInner c = true) (hline : c ≠ '_') : isRule (c :: s) = false := by
  obtain ⟨-, -, -, hdash, -, hstar⟩ := isInner_iff.1 hc
  simp [isRule, hdash, hstar, hline]

theorem itemMark?_inner (hc : isInner c = true) : itemMark? (c :: s) = none := by
  obtain ⟨-, hdigit, -, hdash, hplus, hstar⟩ := isInner_iff.1 hc
  simp [itemMark?, hdash, hplus, hstar, hdigit, Text.numeral?]

/-- Such a line starts no item.  With four spaces it would be code, which starts none either. -/
theorem listMark?_indented (hc : isInner c = true) (column : Nat) {k : Nat} (hk : k ≤ 3) :
    (indented column k (c :: s)).listMark? = none := by
  rw [listMark?, take_four hc column hk]
  dsimp only
  split
  · rfl
  · exact congrArg (Option.map _) (itemMark?_inner hc)

end Line

/-- A container goes on with such a line whatever its text, or with none of them. -/
theorem Container.enter?_indented (container : Container) (column k : Nat) :
    (∀ c s, isInner c = true → container.enter? (.indented column k (c :: s)) = none) ∨
      ∃ column' k', k' ≤ k ∧ ∀ c s, isInner c = true →
        container.enter? (.indented column k (c :: s)) = some (.indented column' k' (c :: s)) := by
  cases container with
  | quote blocks => exact .inl fun c s hc => Line.quoteMark?_indented hc column k
  | list mark tight items => exact .inr ⟨column, k, le_rfl, fun c s _ => rfl⟩
  | item indent blocks =>
    by_cases hindent : indent ≤ k
    · refine .inr ⟨column + min indent k, k - indent, Nat.sub_le k indent, fun c s hc => ?_⟩
      rw [enter?, Line.take_indented hc]
      exact if_pos (by simp [Nat.sub_eq_zero_of_le hindent])
    · refine .inl fun c s hc => ?_
      rw [enter?, Line.take_indented hc]
      refine if_neg ?_
      rw [Line.atEnd_indented hc, Bool.or_false, beq_iff_eq]
      omega

/-- Open containers take spaces from the front of such a line.  How many of them it goes on with
does not depend on its text. -/
theorem enterAll_indented (containers : List Container) (column k : Nat) :
    ∃ n column' k', k' ≤ k ∧ ∀ c s, isInner c = true →
      enterAll containers (.indented column k (c :: s)) = (n, .indented column' k' (c :: s)) := by
  induction containers generalizing column k with
  | nil => exact ⟨0, column, k, le_rfl, fun c s _ => rfl⟩
  | cons container inner ih =>
    obtain hnone | ⟨column', k', hle, hsome⟩ := container.enter?_indented column k
    · exact ⟨0, column, k, le_rfl, fun c s hc => by rw [enterAll, hnone c s hc]⟩
    · obtain ⟨n, column'', k'', hle', hinner⟩ := ih column' k'
      exact ⟨n + 1, column'', k'', hle'.trans hle, fun c s hc => by
        rw [enterAll, hsome c s hc]
        dsimp only
        rw [hinner c s hc]⟩

namespace Outline

variable {o : Outline} {pre t : List (List Char)}

/-- The open containers of an outline go on with such a line or not, whatever its text. -/
theorem enter_indented (o : Outline) (k : Nat) :
    ∃ n column k', k' ≤ k ∧ ∀ c s, isInner c = true →
      o.enter (List.replicate k ' ' ++ c :: s) = (n, .indented column k' (c :: s)) :=
  enterAll_indented o.containers 0 k

/-- Such a line opens no container, however often marks are looked for. -/
theorem openMarks_indented (hc : isInner c = true) (column : Nat) {k : Nat} (hk : k ≤ 3)
    (fuel : Nat) : o.openMarks fuel (.indented column k (c :: s))
      = (o, some (.indented column k (c :: s))) := by
  cases fuel with
  | zero => rfl
  | succ fuel =>
    rw [openMarks, Line.listMark?_indented hc column hk]
    dsimp only
    rw [Line.quoteMark?_indented hc]

/-- A line that opens no container starts a block, in a state that does not depend on its text. -/
theorem advance_indented (o : Outline) {k : Nat} (hk : k ≤ 3) :
    ∃ o' places indent, ∀ c s rest, isInner c = true →
      o.advance (List.replicate k ' ' ++ c :: s) rest
        = textBlock o' (c :: s) places indent rest := by
  obtain ⟨n, column, k', hle, henter⟩ := o.enter_indented k
  have hk' := hle.trans hk
  have hmissing : (4 - k' == 0) = false := by
    rw [beq_eq_false_iff_ne]
    omega
  refine ⟨(popTo n o.opened.length o).closeList, max 0 (4 - (4 - k')), 4 - (4 - k'),
    fun c s rest hc => ?_⟩
  have hopen := openMarks_indented (o := popTo n o.opened.length o) (s := s) hc column hk'
    (List.replicate k ' ' ++ c :: s).length
  rw [advance, goOn, henter c s hc]
  dsimp only
  rw [hopen]
  dsimp only
  rw [Line.blankRest_indented hc, if_neg Bool.false_ne_true, block_eq, Line.take_four hc column hk']
  dsimp only
  rw [hmissing, if_neg Bool.false_ne_true]
  rfl

/-! ## Paragraphs

A line of this sort is not the start of anything else, and no line of this sort ends a paragraph.
So the lines up to the next gap are the paragraph. -/

/-- A plain character is the mark of no block, and then the line starts a paragraph. -/
theorem textBlock_plain (hc : isPlain c = true) (places indent : Nat) (rest : List (List Char)) :
    o.textBlock (c :: s) places indent rest = o.paragraph (c :: s) rest := by
  obtain ⟨hinner, hmark, hangle, hbracket, htick, htilde, hline, -⟩ := isPlain_iff.1 hc
  have hhtml : htmlStop? (c :: s) = none := if_neg (by simpa using hangle)
  have hheading : headingLevel? (c :: s) = none := by simp [headingLevel?, hmark]
  have hfence : fence? (c :: s) = none := by simp [fence?, htick, htilde]
  have hdefinition : o.definition? (c :: s) rest = none := if_neg (by simpa using hbracket)
  rw [textBlock, hhtml, hheading, hfence, hdefinition]
  exact if_neg (by simp [Line.isRule_inner hinner hline])

/-- Inside the open containers such a line is a line of the same sort. -/
theorem enter_plain (o : Outline) (h : isPlainLine line = true) : ∃ n column k c s,
    k ≤ 3 ∧ isPlain c = true ∧ o.enter line = (n, .indented column k (c :: s)) := by
  obtain ⟨k, c, s, hk, hc, rfl⟩ := isPlainLine_iff.1 h
  obtain ⟨n, column, k', hle, henter⟩ := o.enter_indented k
  exact ⟨n, column, k', c, s, hle.trans hk, hc, henter c s (isInner_of_isPlain hc)⟩

/-- Such a line is no delimiter row, so that the line before it is no header. -/
theorem columns?_plain (h : isPlainLine line = true) (header : List Char) :
    o.columns? header line = none := by
  obtain ⟨n, column, k, c, s, hk, hc, henter⟩ := o.enter_plain h
  obtain ⟨hinner, -, -, -, -, -, -, -, hpipe, hcolon⟩ := isPlain_iff.1 hc
  obtain ⟨hspace, -, hfeed⟩ := ne_of_isInner hinner
  obtain ⟨-, -, -, hdash, -⟩ := isInner_iff.1 hinner
  have hrow : delimiterRow? (.indented column k (c :: s)) = none := by
    obtain ⟨missing, hmissing⟩ : ∃ missing, 4 - k = missing + 1 := ⟨3 - k, by omega⟩
    rw [delimiterRow?, Line.take_four hinner column hk, hmissing]
    simp [Line.indented, delimiterCells, hpipe, hcolon, hspace, hfeed, hdash]
  have hinside : (o.inside? line).bind delimiterRow? = none := by
    rw [inside?, henter]
    dsimp only
    split
    · exact hrow
    · rfl
  rw [columns?, hinside]
  exact ite_self none

/-- It does not underline the paragraph before it. -/
theorem lineLevel?_plain (h : isPlainLine line = true) : o.lineLevel? line = none := by
  obtain ⟨n, column, k, c, s, hk, hc, henter⟩ := o.enter_plain h
  obtain ⟨hinner, -, -, -, -, -, -, hunder, -⟩ := isPlain_iff.1 hc
  obtain ⟨-, -, -, hdash, -⟩ := isInner_iff.1 hinner
  have hlevel : underline? (c :: s) = none := by simp [underline?, hunder, hdash]
  rw [lineLevel?, henter]
  dsimp only
  rw [Line.take_four hinner column hk]
  change (if _ then underline? (c :: s) else none) = none
  rw [hlevel, ite_self]

/-- It does not end the paragraph before it. -/
theorem endsParagraph_plain (h : isPlainLine line = true)
    (next : Option (List Char)) : o.endsParagraph line next = false := by
  obtain ⟨n, column, k, c, s, hk, hc, henter⟩ := o.enter_plain h
  obtain ⟨hinner, hmark, hangle, -, htick, htilde, hline, -⟩ := isPlain_iff.1 hc
  obtain ⟨-, -, hquote, -⟩ := isInner_iff.1 hinner
  have hfeed := (ne_of_isInner hinner).2.2
  -- nothing that interrupts a paragraph starts with a plain character
  have hends : ∀ inside, interrupts (c :: s) next inside = false := fun inside => by
    simp [interrupts, atEnd, Line.isRule_inner hinner hline, Line.itemMark?_inner hinner,
      headingLevel?, fence?, hfeed, hmark, htick, htilde, hquote, hangle]
  rw [endsParagraph, henter]
  dsimp only
  rw [Line.take_four hinner column hk, Line.unindented_indented hinner]
  change (_ && interrupts (c :: s) next _ || atEnd (c :: s)) = false
  rw [hends, Bool.and_false, Bool.false_or]
  simpa [atEnd] using hfeed

/-- The lines of a paragraph up to a gap. -/
theorem paragraphLines_plain (hpre : ∀ line ∈ pre, isPlainLine line = true) (ht : IsGapped t) :
    o.paragraphLines (pre ++ t) = (pre.map fun line => (o.enter line).2.rest, none, t) := by
  induction pre with
  | nil =>
    cases t with
    | nil => rfl
    | cons gap rest =>
      have hgap := ht.head gap rfl
      rw [List.nil_append, paragraphLines_cons, lineLevel?_of_isGap hgap, if_neg (by decide),
        endsParagraph_of_isGap hgap, if_pos rfl]
      rfl
  | cons line pre ih =>
    have hline := hpre line List.mem_cons_self
    rw [List.cons_append, paragraphLines_cons, lineLevel?_plain hline, if_neg (by decide),
      endsParagraph_plain hline, if_neg Bool.false_ne_true,
      ih fun line hline => hpre line (List.mem_cons_of_mem _ hline)]
    rfl

/-- A paragraph of plain lines goes up to the gap, and is not the header of a table. -/
theorem paragraph_plain (hpre : ∀ line ∈ pre, isPlainLine line = true) (ht : IsGapped t)
    (first : List Char) : o.paragraph first (pre ++ t) = (o.addParagraph first
      (pre.map fun line => (o.taskless.enter line).2.rest, none), t) := by
  have htable : o.taskless.table? first (pre ++ t) = none := by
    -- the header of a table has a row of marks below it, which neither a gap nor a plain line is
    cases pre with
    | nil => exact table?_of_isGapped ht first
    | cons line pre =>
      rw [List.cons_append, table?_cons, columns?_plain (hpre line List.mem_cons_self)]
      rfl
  rw [paragraph_of_lines htable, paragraphLines_plain hpre ht]

/-- **Lines that open nothing are one paragraph up to a gap**, in a state that does not depend on
them. -/
theorem advance_plain (o : Outline) {k : Nat} (hk : k ≤ 3) :
    ∃ o' : Outline, ∀ c s pre t, isPlain c = true → (∀ line ∈ pre, isPlainLine line = true) →
      IsGapped t → o.advance (List.replicate k ' ' ++ c :: s) (pre ++ t)
        = (o'.addParagraph (c :: s) (pre.map fun line => (o'.taskless.enter line).2.rest, none),
          t) := by
  obtain ⟨o', places, indent, hadvance⟩ := o.advance_indented hk
  refine ⟨o', fun c s pre t hc hpre ht => ?_⟩
  rw [hadvance c s _ (isInner_of_isPlain hc), textBlock_plain hc, paragraph_plain hpre ht]

/-- The last line of such a paragraph comes behind what the others have given. -/
theorem readAll_plain (o : Outline) (hpre : ∀ line ∈ pre, isPlainLine line = true) {k : Nat}
    (hk : k ≤ 3) (hc : isPlain c = true) : ∃ (o' : Outline) (before : List Char),
      ∀ s t, IsGapped t → o.readAll (pre ++ (List.replicate k ' ' ++ c :: s) :: t)
        = (o'.addParagraph (before ++ c :: s) ([], none)).readAll t := by
  cases pre with
  | nil =>
    obtain ⟨o', hadvance⟩ := o.advance_plain hk
    refine ⟨o', [], fun s t ht => ?_⟩
    rw [List.nil_append, readAll_cons, ← List.nil_append t,
      hadvance c s [] t hc (List.forall_mem_nil _) ht]
    rfl
  | cons first pre =>
    obtain ⟨k₀, c₀, s₀, hk₀, hc₀, rfl⟩ := isPlainLine_iff.1 (hpre first List.mem_cons_self)
    obtain ⟨o', hadvance⟩ := o.advance_plain hk₀
    obtain ⟨n, column, k', -, henter⟩ := o'.taskless.enter_indented k
    refine ⟨o', c₀ :: s₀ ++ (pre.map fun line => (o'.taskless.enter line).2.rest).flatten
      ++ List.replicate k' ' ', fun s t ht => ?_⟩
    -- the last line is one of the plain lines, so that the first one starts a paragraph of them all
    have hlines : ∀ line ∈ pre ++ [List.replicate k ' ' ++ c :: s], isPlainLine line = true := by
      intro line hmem
      rcases List.mem_append.1 hmem with hmem | hmem
      · exact hpre line (List.mem_cons_of_mem _ hmem)
      · exact isPlainLine_iff.2 ⟨k, c, s, hk, hc, List.eq_of_mem_singleton hmem⟩
    rw [List.cons_append, readAll_cons, List.append_cons pre, hadvance c₀ s₀ _ t hc₀ hlines ht]
    dsimp only
    rw [List.map_append, List.map_singleton, henter c s (isInner_of_isPlain hc), addParagraph,
      addParagraph]
    simp [Line.indented]

/-- **Blanks at the end of a paragraph do not matter.** -/
theorem readAll_paragraph (o : Outline) {blanks : List Char}
    (hpre : ∀ line ∈ pre, isPlainLine line = true) (hline : isPlainLine line = true)
    (hblanks : ∀ c ∈ blanks, isLineBlank c = true) (ht : IsGapped t) :
    o.readAll (pre ++ (line ++ blanks ++ ['\n']) :: t)
      = o.readAll (pre ++ (line ++ ['\n']) :: t) := by
  obtain ⟨k, c, s, hk, hc, rfl⟩ := isPlainLine_iff.1 hline
  obtain ⟨o', before, hread⟩ := o.readAll_plain hpre hk hc
  have hfeed : ∀ c ∈ ['\n'], isAsciiBlank c = true := by simp [isAsciiBlank]
  -- the two lines differ in what their paragraph drops
  have hend : Text.dropTrailing isAsciiBlank (before ++ c :: (s ++ blanks ++ ['\n']))
      = Text.dropTrailing isAsciiBlank (before ++ c :: (s ++ ['\n'])) := by
    rw [← List.cons_append, ← List.cons_append, ← List.cons_append, ← List.append_assoc,
      ← List.append_assoc, ← List.append_assoc, Text.dropTrailing_append_of_all hfeed,
      Text.dropTrailing_append_of_all hfeed,
      Text.dropTrailing_append_of_all fun c hc => by simp [isAsciiBlank, hblanks c hc]]
  have hsame : o'.addParagraph (before ++ c :: (s ++ blanks ++ ['\n'])) ([], none)
      = o'.addParagraph (before ++ c :: (s ++ ['\n'])) ([], none) := by
    rw [addParagraph, addParagraph]
    dsimp only
    rw [List.flatten_nil, List.append_nil, List.append_nil, hend]
  have hleft := hread (s ++ blanks ++ ['\n']) t ht
  rw [hsame, ← hread (s ++ ['\n']) t ht] at hleft
  simpa using hleft

/-! ## Headings

A heading is a line by itself, and what comes after that line does not matter.  Of the blanks at its
end only spaces are dropped before its closing marks are looked for, so nothing is said of tabs
here. -/

/-- The text of a heading goes by what is left of it without the blanks at its end. -/
theorem headingText_congr {s t : List Char}
    (hline : Text.dropTrailing (fun c => c == ' ' || c == '\n') (s.dropWhile isLineBlank)
      = Text.dropTrailing (fun c => c == ' ' || c == '\n') (t.dropWhile isLineBlank))
    (htext : Text.dropTrailing isAsciiBlank (s.dropWhile isLineBlank)
      = Text.dropTrailing isAsciiBlank (t.dropWhile isLineBlank)) :
    headingText s = headingText t := by
  rw [headingText, headingText]
  dsimp only
  rw [hline, htext]

/-- Spaces at the end of a heading are dropped with its line feed. -/
theorem headingText_spaces {spaces : List Char} (h : ∀ c ∈ spaces, c = ' ') :
    headingText (s ++ spaces ++ ['\n']) = headingText (s ++ ['\n']) := by
  have hend : ∀ (p : Char → Bool) (s : List Char), p ' ' = true → p '\n' = true →
      Text.dropTrailing p (s ++ spaces ++ ['\n']) = Text.dropTrailing p (s ++ ['\n']) := by
    intro p s hspace hfeed
    have hlast : ∀ c ∈ ['\n'], p c = true := fun c hc => List.eq_of_mem_singleton hc ▸ hfeed
    rw [Text.dropTrailing_append_of_all hlast, Text.dropTrailing_append_of_all hlast,
      Text.dropTrailing_append_of_all fun c hc => h c hc ▸ hspace]
  -- an empty heading loses its spaces in front of the text, any other one behind it
  by_cases hblank : (s.dropWhile isLineBlank).isEmpty = true
  · have hrest : ∀ tail, (s ++ tail).dropWhile isLineBlank = tail.dropWhile isLineBlank :=
      fun tail => by rw [List.dropWhile_append, if_pos hblank]
    have hsame : (s ++ spaces ++ ['\n']).dropWhile isLineBlank
        = (s ++ ['\n']).dropWhile isLineBlank := by
      rw [List.append_assoc, hrest, hrest]
      exact List.dropWhile_append_of_pos fun c hc => by rw [h c hc]; rfl
    exact headingText_congr (congrArg _ hsame) (congrArg _ hsame)
  · have hkept : ∀ tail, (s ++ tail).dropWhile isLineBlank = s.dropWhile isLineBlank ++ tail :=
      fun tail => by rw [List.dropWhile_append, if_neg hblank]
    refine headingText_congr ?_ ?_
    · rw [List.append_assoc, hkept, hkept, ← List.append_assoc]
      exact hend _ _ rfl rfl
    · rw [List.append_assoc, hkept, hkept, ← List.append_assoc]
      exact hend _ _ rfl rfl

/-- What comes after a heading on its line does not change its level, if it starts with a blank. -/
theorem headingLevel?_append {tail : List Char}
    (htail : ∀ d ∈ tail.head?, isAsciiBlank d = true) :
    headingLevel? (s ++ tail) = headingLevel? s ∧
      ∀ level, headingLevel? s = some level → (s ++ tail).drop level = s.drop level ++ tail := by
  have hmarks : tail.takeWhile (· == '#') = [] := by
    cases tail with
    | nil => rfl
    | cons d tail =>
      refine List.takeWhile_cons_of_neg ?_
      rintro hd
      rw [beq_iff_eq.1 hd] at htail
      exact absurd (htail _ rfl) (by decide)
  have hlevel : ((s ++ tail).takeWhile (· == '#')).length = (s.takeWhile (· == '#')).length := by
    rw [List.takeWhile_append]
    split
    · next hall => rw [hmarks, List.append_nil, hall]
    · rfl
  have hle : (s.takeWhile (· == '#')).length ≤ s.length := (List.takeWhile_prefix _).length_le
  have hdrop : (s ++ tail).drop (s.takeWhile (· == '#')).length
      = s.drop (s.takeWhile (· == '#')).length ++ tail := List.drop_append_of_le_length hle
  refine ⟨?_, fun level h => ?_⟩
  · rw [headingLevel?, headingLevel?, hlevel, hdrop]
    cases s.drop (s.takeWhile (· == '#')).length with
    | nil =>
      -- marks may stand alone, and then a blank or the end comes after them
      have hblank : tail.head?.all isAsciiBlank = true := by
        cases tail with
        | nil => rfl
        | cons d tail => exact htail d rfl
      rw [List.nil_append, hblank]
      rfl
    | cons d rest => rfl
  · rw [headingLevel?] at h
    split at h
    · cases h
      exact hdrop
    · cases h

/-- A heading is one line, so that the lines after it are left as they are. -/
theorem textBlock_heading {level : Nat} (h : headingLevel? ('#' :: s) = some level)
    (places indent : Nat) (rest : List (List Char)) : o.textBlock ('#' :: s) places indent rest
      = (o.add (.heading level (headingText (('#' :: s).drop level))), rest) := by
  rw [textBlock, h]
  rfl

/-- **Spaces at the end of a heading do not matter.** -/
theorem readAll_heading (o : Outline) {spaces : List Char} (hline : isHeadingLine line = true)
    (hspaces : ∀ c ∈ spaces, c = ' ') (lines : List (List Char)) :
    o.readAll ((line ++ spaces ++ ['\n']) :: lines) = o.readAll ((line ++ ['\n']) :: lines) := by
  obtain ⟨k, s, hk, hlevel, rfl⟩ := isHeadingLine_iff.1 hline
  obtain ⟨level, hlevel⟩ := Option.isSome_iff_exists.1 hlevel
  obtain ⟨o', places, indent, hadvance⟩ := o.advance_indented hk
  have hread : ∀ tail, (∀ d ∈ tail.head?, isAsciiBlank d = true) →
      o.readAll ((List.replicate k ' ' ++ '#' :: (s ++ tail)) :: lines)
        = (o'.add (.heading level (headingText (('#' :: s).drop level ++ tail)))).readAll lines := by
    intro tail htail
    -- the level is the same with the tail, and the tail stands behind the text
    obtain ⟨hsame, hdrop⟩ := headingLevel?_append (s := '#' :: s) htail
    have hwhole : headingLevel? ('#' :: (s ++ tail)) = some level := hsame.trans hlevel
    rw [← hdrop level hlevel, readAll_cons, hadvance '#' (s ++ tail) lines (by decide),
      textBlock_heading hwhole]
    rfl
  have hleft := hread (spaces ++ ['\n']) fun d hd => by
    cases spaces with
    | nil => cases hd; rfl
    | cons first spaces =>
      cases hd
      rw [hspaces _ List.mem_cons_self]
      rfl
  have hright := hread ['\n'] fun d hd => by cases hd; rfl
  have htext : headingText (('#' :: s).drop level ++ (spaces ++ ['\n']))
      = headingText (('#' :: s).drop level ++ ['\n']) := by
    rw [← List.append_assoc]
    exact headingText_spaces hspaces
  rw [htext, ← hright] at hleft
  simpa using hleft

end Outline
end Markdown
end Frontispiece
