import Frontispiece.Artifact.Markdown
import Frontispiece.Markdown.Html
import Frontispiece.Proofs.Markdown.Reading
import Frontispiece.Proofs.Markdown.Trailing
import Frontispiece.Proofs.Text.Pieces
import Mathlib.Data.List.DropRight

/-!
# Minified Markdown

`minifyMarkdown` reads the lines of a text one by one and does not know their blocks.  What it takes
for a blank line between blocks may be code, and then the document changes: see
`exists_toHtml_minifyMarkdown_ne`.  Where it is right about the blank lines, the document stays.

## What is here

* `linesOf_eq` — the lines that are minified are the lines that the reader of Markdown sees.
* `freshLines` — the lines that are kept, first to last, and `minifyMarkdown_eq`.
* `Orderly` — a text whose blank lines outside fences are gaps, and whose other lines outside
  fences end in no blanks but those of a line break, or end a paragraph or a heading.
* `ReadsAlike` — what one line does to what is read (`join`, `trim`, `skip`, `reach`), and by
  induction `OrderlyFrom.readsAlike`.
* `mem_markdownProblems_iff` — what the problems of a text mean.
* `toHtml_minifyMarkdown` — minifying such a text does not change its page.

The two sides of the theorem are far apart: the minifier looks at lines one by one, and the reader
of Markdown has a state and may look ahead.  They are brought together at the gaps, which are the
lines between blocks.  By what is known of the reader, what comes before a gap is read without
regard to what comes after it, so that a text can be compared with its minified form piece by piece,
from gap to gap.

`Orderly` is what the minifier silently takes for granted of a text: that fences pair up as it
thinks, that no line with text loses anything that matters by being trimmed, and that blank lines
stand between blocks.  Texts of which this is not so exist, and the last theorem has one.  A line
loses nothing if it is kept as it is, and nothing that matters where it ends a paragraph of plain
lines or is a heading.  In other places the blanks at its end may be a part of code, of HTML or of a
link.
-/

set_option autoImplicit false

namespace Frontispiece
namespace Artifact

open Markdown (IsLine IsEnded IsGap IsGapped linesOf Outline)

variable {line : List Char} {lines : List (List Char)} {s : List Char}

/-! ## Lines

There are two notions of a line: the minifier ends lines at line feeds, and drops a carriage return
before one, while the reader of Markdown ends lines at every carriage return too.  They agree on
texts in which carriage returns stand at line ends only. -/

theorem splitOn_feed {piece : List Char} (h : '\n' ∉ piece) (rest : List Char) :
    Text.splitOn (· == '\n') (piece ++ '\n' :: rest) = piece :: Text.splitOn (· == '\n') rest := by
  have hfree : ∀ c ∈ piece, (c == '\n') = false := fun c hc => by
    simpa using fun heq : c = '\n' => h (heq ▸ hc)
  rw [Text.splitOn_append rfl, Text.splitOn_of_free hfree]
  rfl

theorem lines_feed {piece : List Char} (h : '\n' ∉ piece) (rest : List Char) :
    Text.lines (piece ++ '\n' :: rest) = Text.dropReturn piece :: Text.lines rest := by
  rw [Text.lines, Text.lines, splitOn_feed h]
  obtain ⟨last, before, hlast⟩ :=
    List.exists_cons_of_ne_nil (List.reverse_ne_nil_iff.mpr (Text.splitOn_ne_nil (· == '\n') rest))
  rw [List.reverse_cons, hlast, List.cons_append]
  simp

theorem isLine_append_feed (hfeed : '\n' ∉ line) (hreturn : '\r' ∉ line) :
    IsLine (line ++ ['\n']) :=
  IsLine.stop.append_text fun _ hc => ⟨fun h => hfeed (h ▸ hc), fun h => hreturn (h ▸ hc)⟩

theorem dropReturn_subset (piece : List Char) : Text.dropReturn piece ⊆ piece := by
  rw [Text.dropReturn]
  split
  · exact List.dropLast_subset piece
  · exact List.Subset.refl _

theorem linesFrom_feed (hfeed : '\n' ∉ line) (hreturn : '\r' ∉ line) (rest : List Char) :
    Markdown.linesFrom [] (line ++ '\n' :: rest)
      = (line ++ ['\n']) :: Markdown.linesFrom [] rest := by
  rw [← List.singleton_append, ← List.append_assoc]
  exact Markdown.linesFrom_of_isLine (isLine_append_feed hfeed hreturn) [] rest

/-- The reader drops the carriage return before a line feed. -/
theorem linesFrom_returnFeed {text : List Char} (hfeed : '\n' ∉ text) (hreturn : '\r' ∉ text)
    (read rest : List Char) : Markdown.linesFrom read (text ++ '\r' :: '\n' :: rest)
      = (read.reverse ++ (text ++ ['\n'])) :: Markdown.linesFrom [] rest := by
  induction text generalizing read with
  | nil =>
    rw [List.nil_append, Markdown.linesFrom, List.reverse_cons]
    rfl
  | cons c text ih =>
    rw [List.mem_cons, not_or] at hfeed hreturn
    rw [List.cons_append, Markdown.linesFrom_cons fun _ hc => absurd hc.symm hreturn.1,
      if_neg (by simpa using ⟨Ne.symm hfeed.1, Ne.symm hreturn.1⟩), ih hfeed.2 hreturn.2,
      List.reverse_cons]
    simp

/-- A line with its line end, of which one carriage return may be a part, is read as this line. -/
theorem linesFrom_dropReturn {piece : List Char} (hfeed : '\n' ∉ piece)
    (hreturn : '\r' ∉ Text.dropReturn piece) (rest : List Char) :
    Markdown.linesFrom [] (piece ++ '\n' :: rest)
      = (Text.dropReturn piece ++ ['\n']) :: Markdown.linesFrom [] rest := by
  rcases hlast : piece.getLast? with _ | c
  · have hpiece : Text.dropReturn piece = piece := by rw [Text.dropReturn, hlast]
    rw [hpiece] at hreturn ⊢
    exact linesFrom_feed hfeed hreturn rest
  · obtain ⟨text, rfl⟩ := List.getLast?_eq_some_iff.mp hlast
    by_cases hc : c = '\r'
    · subst hc
      have hpiece : Text.dropReturn (text ++ ['\r']) = text := by
        rw [Text.dropReturn, hlast]
        exact List.dropLast_concat
      rw [hpiece] at hreturn ⊢
      rw [List.append_assoc]
      exact linesFrom_returnFeed (fun hmem => hfeed (List.mem_append_left _ hmem)) hreturn [] rest
    · have hpiece : Text.dropReturn (text ++ [c]) = text ++ [c] := by
        rw [Text.dropReturn, hlast]
        split
        · next h => exact absurd (Option.some.inj h) hc
        · rfl
      rw [hpiece] at hreturn ⊢
      exact linesFrom_feed hfeed hreturn rest

/-- The lines that the reader of Markdown sees. -/
theorem linesOf_eq (hs : s = [] ∨ IsEnded s) (hreturn : ∀ line ∈ Text.lines s, '\r' ∉ line) :
    linesOf s = (Text.lines s).map (· ++ ['\n']) ∧ ∀ line ∈ Text.lines s, '\n' ∉ line := by
  induction hn : s.length using Nat.strong_induction_on generalizing s with
  | _ n ih =>
    subst hn
    obtain rfl | hs := hs
    · exact ⟨rfl, nofun⟩
    · obtain ⟨piece, rest, rfl, hpiece⟩ := List.eq_append_cons_of_mem hs.mem
      rw [lines_feed hpiece] at hreturn ⊢
      have hrest : rest = [] ∨ IsEnded rest := or_iff_not_imp_left.mpr fun hne =>
        IsEnded.of_append (u := piece ++ ['\n']) (by rwa [List.append_assoc]) hne
      obtain ⟨hlines, hfeed⟩ := ih rest.length (by simp; omega) hrest
        (fun line hline => hreturn line (List.mem_cons_of_mem _ hline)) rfl
      refine ⟨?_, fun line hline => ?_⟩
      · rw [linesOf, linesFrom_dropReturn hpiece (hreturn _ List.mem_cons_self), ← linesOf, hlines]
        rfl
      · obtain rfl | hline := List.mem_cons.mp hline
        · exact fun hmem => hpiece (dropReturn_subset piece hmem)
        · exact hfeed line hline

/-! ## The lines that are kept

The minifier keeps its lines latest first and looks at the one it kept last.  Read from the first
line on, that is a flag: whether the line before was empty. -/

/-- The lines that are kept, first to last, where `after` tells whether the line before is empty or
missing. -/
def freshLines (after : Bool) : List (List Char × Bool) → List (List Char)
  | [] => []
  | (line, fenced) :: rest =>
    if fenced then line :: freshLines line.isEmpty rest
    else if Text.allBlank line then
      if after then freshLines true rest else [] :: freshLines true rest
    else keptLine line rest.head? :: freshLines false rest

/-- Something is left of a line with text when blanks at its end are dropped. -/
theorem trimEnd_ne_nil (h : Text.allBlank line = false) : Text.trimEnd line ≠ [] := by
  induction line with
  | nil => cases h
  | cons c line ih =>
    rw [Text.trimEnd, Text.dropTrailing, List.foldr_cons]
    split
    · next hdropped =>
      rw [Bool.and_eq_true, List.isEmpty_iff] at hdropped
      rw [Text.allBlank, List.all_cons, hdropped.2, Bool.true_and] at h
      exact absurd hdropped.1 (ih h)
    · exact List.cons_ne_nil _ _

theorem keptLine_ne_nil (h : Text.allBlank line = false) (next : Option (List Char × Bool)) :
    keptLine line next ≠ [] := by
  rw [keptLine]
  exact List.append_ne_nil_of_left_ne_nil (trimEnd_ne_nil h) _

/-- The lines that are kept, collected last to first, are the fresh lines. -/
theorem keptLines_eq (kept : List (List Char)) (lines : List (List Char × Bool)) :
    keptLines kept lines = (freshLines (kept.head?.all List.isEmpty) lines).reverse ++ kept := by
  induction lines generalizing kept with
  | nil => rfl
  | cons entry rest ih =>
    obtain ⟨line, fenced⟩ := entry
    rw [keptLines.eq_def, freshLines]
    dsimp only
    split
    · rw [ih, List.reverse_cons, List.append_assoc]
      rfl
    · split
      · cases kept with
        | nil => exact ih []
        | cons last kept =>
          dsimp only
          split
          · next hlast => simp only [ih, List.head?_cons, Option.all_some, hlast, if_true]
          · next hlast =>
            simp only [ih, List.head?_cons, Option.all_some, hlast, Bool.false_eq_true, if_false,
              List.isEmpty_nil, List.reverse_cons, List.append_assoc, List.singleton_append]
      · next hblank =>
        have hkept := keptLine_ne_nil (by simpa using hblank) rest.head?
        rw [ih, List.reverse_cons, List.append_assoc, List.head?_cons, Option.all_some,
          List.isEmpty_eq_false_iff.mpr hkept]
        rfl

/-- Lines with a line feed between them and one at the end are lines with a line feed each. -/
theorem join_feed {pieces : List (List Char)} (h : pieces ≠ []) :
    Text.join ['\n'] pieces ++ ['\n'] = (pieces.map (· ++ ['\n'])).flatten := by
  induction pieces with
  | nil => exact absurd rfl h
  | cons piece pieces ih =>
    cases pieces with
    | nil => simp [Text.join]
    | cons next pieces =>
      rw [Text.join, List.append_assoc, ih nofun]
      · simp
      · nofun

/-- **What is left of a text**: its fresh lines without the empty ones at the end, with a line feed
each. -/
theorem minifyMarkdown_eq (s : List Char) : minifyMarkdown s
    = (((freshLines true (fencedLines s)).rdropWhile List.isEmpty).map (· ++ ['\n'])).flatten := by
  have hjoin : ∀ kept : List (List Char),
      (if kept.isEmpty then [] else Text.join ['\n'] kept.reverse ++ ['\n'])
        = (kept.reverse.map (· ++ ['\n'])).flatten := by
    intro kept
    cases kept with
    | nil => rfl
    | cons last kept => exact (if_neg Bool.false_ne_true).trans (join_feed (by simp))
  rw [minifyMarkdown, keptLines_eq, List.append_nil]
  exact hjoin _

/-! ## What is kept of the lines

A line between fences is kept, one with text is trimmed, and a blank one is kept as an empty line or
left out.  At the end all empty lines are dropped, which must not happen to lines of code; the fence
that closes the code prevents it. -/

/-- Lines with their line feeds. -/
def fed (lines : List (List Char)) : List (List Char) := lines.map (· ++ ['\n'])

variable {inside after : Bool} {rest : List (List Char)} {entries : List (List Char × Bool)}

theorem freshLines_fenced : freshLines after ((line, true) :: entries)
    = line :: freshLines line.isEmpty entries := rfl

theorem freshLines_text (h : Text.allBlank line = false) :
    freshLines after ((line, false) :: entries)
    = keptLine line entries.head? :: freshLines false entries := by
  rw [freshLines, if_neg Bool.false_ne_true, if_neg (by simp [h])]

theorem freshLines_blank (h : Text.allBlank line = true) :
    freshLines after ((line, false) :: entries)
    = if after then freshLines true entries else [] :: freshLines true entries := by
  rw [freshLines, if_neg Bool.false_ne_true, if_pos h]

theorem fencedFrom_fence (h : isFence line = true) :
    fencedFrom inside (line :: rest) = (line, false) :: fencedFrom (!inside) rest := by
  rw [fencedFrom, if_pos h]

theorem fencedFrom_line (h : isFence line = false) :
    fencedFrom inside (line :: rest) = (line, inside) :: fencedFrom inside rest := by
  rw [fencedFrom, if_neg (by simp [h])]

theorem fencedFrom_map (inside : Bool) (lines : List (List Char)) :
    (fencedFrom inside lines).map (·.1) = lines := by
  induction lines generalizing inside with
  | nil => rfl
  | cons line lines ih =>
    cases hfence : isFence line with
    | true => rw [fencedFrom_fence hfence, List.map_cons, ih]
    | false => rw [fencedFrom_line hfence, List.map_cons, ih]

theorem not_blank_of_isFence (h : isFence line = true) : Text.allBlank line = false := by
  by_contra hblank
  rw [Bool.not_eq_false] at hblank
  have hstart : Text.trimStart line = [] :=
    List.dropWhile_eq_nil_iff.mpr fun c hc => List.all_eq_true.mp hblank c hc
  rw [isFence, hstart] at h
  revert h
  decide

/-- Between fences it does not matter which line is before. -/
theorem freshLines_inside (after after' : Bool) (lines : List (List Char)) :
    freshLines after (fencedFrom true lines) = freshLines after' (fencedFrom true lines) := by
  cases lines with
  | nil => rfl
  | cons line lines =>
    cases hfence : isFence line with
    | true =>
      have hblank := not_blank_of_isFence hfence
      rw [fencedFrom_fence hfence, freshLines_text hblank, freshLines_text hblank]
    | false => rw [fencedFrom_line hfence, freshLines_fenced, freshLines_fenced]

theorem mem_keptLine {c : Char} {next : Option (List Char × Bool)} (h : c ∈ keptLine line next) :
    c = ' ' ∨ c ∈ line := by
  rw [keptLine, List.mem_append] at h
  refine h.symm.imp (fun hbreak => ?_) fun htext =>
    (Text.dropTrailing_sublist Text.isBlank line).subset htext
  split at hbreak
  · simpa using hbreak
  · cases hbreak

/-- Nothing is written into the lines that are kept but the spaces of a line break. -/
theorem mem_of_mem_freshLines {kept : List Char} {c : Char}
    (hkept : kept ∈ freshLines after entries) (hc : c ∈ kept) :
    c = ' ' ∨ ∃ entry ∈ entries, c ∈ entry.1 := by
  induction entries generalizing after with
  | nil => cases hkept
  | cons entry entries ih =>
    obtain ⟨line, fenced⟩ := entry
    have hrest : ∀ {after : Bool}, kept ∈ freshLines after entries →
        c = ' ' ∨ ∃ entry ∈ (line, fenced) :: entries, c ∈ entry.1 := fun hkept =>
      (ih hkept).imp_right fun ⟨entry, hentry, hin⟩ =>
        ⟨entry, List.mem_cons_of_mem _ hentry, hin⟩
    cases fenced with
    | true =>
      rw [freshLines_fenced, List.mem_cons] at hkept
      rcases hkept with rfl | hkept
      · exact .inr ⟨_, List.mem_cons_self, hc⟩
      · exact hrest hkept
    | false =>
      cases hblank : Text.allBlank line with
      | true =>
        rw [freshLines_blank hblank] at hkept
        split at hkept
        · exact hrest hkept
        · rcases List.mem_cons.1 hkept with rfl | hkept
          · cases hc
          · exact hrest hkept
      | false =>
        rw [freshLines_text hblank, List.mem_cons] at hkept
        rcases hkept with rfl | hkept
        · exact (mem_keptLine hc).imp_right fun hin => ⟨_, List.mem_cons_self, hin⟩
        · exact hrest hkept

/-- A line is what is left of it, and the blanks that were dropped. -/
theorem trimEnd_append_drop (line : List Char) :
    Text.trimEnd line ++ line.drop (Text.trimEnd line).length = line := by
  rw [Text.trimEnd, Text.dropTrailing_eq]
  exact List.prefix_iff_eq_append.1 (List.rdropWhile_prefix Text.isBlank line)

/-- A line is no fence if it starts with another character, and this is no blank. -/
theorem isFence_spaces {c : Char} (hc : Markdown.isInner c = true) (htick : c ≠ '\x60')
    (htilde : c ≠ '~') (k : Nat) (rest : List Char) :
    isFence (List.replicate k ' ' ++ c :: rest) = false := by
  have hstart : Text.trimStart (List.replicate k ' ' ++ c :: rest) = c :: rest := by
    rw [Text.trimStart, List.dropWhile_append_of_pos fun d hd => by
      rw [List.eq_of_mem_replicate hd]
      rfl]
    exact List.dropWhile_cons_of_neg (by simp [(Markdown.isInner_iff.1 hc).1])
  rw [isFence, hstart, ← Bool.not_eq_true, Bool.or_eq_true, Text.startsWith_iff,
    Text.startsWith_iff, List.cons_prefix_cons, List.cons_prefix_cons]
  rintro (⟨rfl, -⟩ | ⟨rfl, -⟩)
  · exact htick rfl
  · exact htilde rfl

/-- A fence is kept. -/
theorem exists_mem_freshLines (after inside : Bool) (h : 0 < lines.countP isFence) :
    ∃ line ∈ freshLines after (fencedFrom inside lines), line ≠ [] := by
  induction lines generalizing after inside with
  | nil => cases h
  | cons line lines ih =>
    cases hfence : isFence line with
    | true =>
      have hblank := not_blank_of_isFence hfence
      rw [fencedFrom_fence hfence, freshLines_text hblank]
      exact ⟨_, List.mem_cons_self, keptLine_ne_nil hblank _⟩
    | false =>
      rw [List.countP_cons_of_neg (by simp [hfence])] at h
      have hrest : ∀ after, ∃ line ∈ freshLines after (fencedFrom inside lines), line ≠ [] :=
        fun after => ih after inside h
      rw [fencedFrom_line hfence]
      cases inside with
      | true =>
        obtain ⟨kept, hkept, hne⟩ := hrest line.isEmpty
        exact ⟨kept, List.mem_cons_of_mem _ hkept, hne⟩
      | false =>
        cases hblank : Text.allBlank line with
        | true =>
          obtain ⟨kept, hkept, hne⟩ := hrest true
          rw [freshLines_blank hblank]
          split
          · exact ⟨kept, hkept, hne⟩
          · exact ⟨kept, List.mem_cons_of_mem _ hkept, hne⟩
        | false =>
          obtain ⟨kept, hkept, hne⟩ := hrest false
          rw [freshLines_text hblank]
          exact ⟨kept, List.mem_cons_of_mem _ hkept, hne⟩

/-- What is dropped at the end is dropped from the first of it on. -/
theorem rdropWhile_cons {β : Type} (p : β → Bool) (first : β) (rest : List β) :
    (first :: rest).rdropWhile p
      = if p first && (rest.rdropWhile p).isEmpty then [] else first :: rest.rdropWhile p := by
  rw [List.rdropWhile, List.rdropWhile, List.reverse_cons, List.dropWhile_append]
  cases hkept : rest.reverse.dropWhile p with
  | nil => cases hp : p first <;> simp [hp]
  | cons last kept => simp

/-! ## Orderly texts

The proof goes through the lines once.  It holds back the lines since the last gap, which the reader
of Markdown may need together, and hands them over when the next gap comes.  In between the outline
is the one before the lines held back. -/

/-- The blanks at the end of a line with text do not matter: it comes before a blank line or the
end, and is the last line of a plain paragraph, or a heading of its own.  The lines since the last
gap are `read`, with their line feeds. -/
def EndsAlike (read : List (List Char)) (line : List Char) (next : Option (List Char × Bool)) :
    Prop :=
  let text := Text.trimEnd line
  let blanks := line.drop text.length
  next.all (fun next => Text.allBlank next.1) = true ∧
    (((∀ before ∈ read, Markdown.isPlainLine before = true) ∧ Markdown.isPlainLine text = true ∧
        ∀ c ∈ blanks, Markdown.isLineBlank c = true) ∨
      (read = [] ∧ Markdown.isHeadingLine text = true ∧ ∀ c ∈ blanks, c = ' '))

instance (read : List (List Char)) (line : List Char) (next : Option (List Char × Bool)) :
    Decidable (EndsAlike read line next) :=
  -- the blanks are gone through, and not all characters that there are
  have {p : Char → Prop} [DecidablePred p] (blanks : List Char) : Decidable (∀ c ∈ blanks, p c) :=
    List.decidableBAll p blanks
  inferInstanceAs (Decidable (_ ∧ (_ ∨ _)))

/-- After the lines `read` since the last gap, each line with text outside fences ends in no blanks
but the two spaces of a line break, or the blanks at its end do not matter. -/
def TextsStay (read : List (List Char)) : List (List Char × Bool) → Prop
  | [] => True
  | (line, true) :: rest => TextsStay (read ++ [line ++ ['\n']]) rest
  | (line, false) :: rest =>
    if Text.allBlank line then TextsStay [] rest
    else (keptLine line rest.head? = line ∨ EndsAlike read line rest.head?) ∧
      TextsStay (read ++ [line ++ ['\n']]) rest

namespace EndsAlike

variable {read : List (List Char)} {next : Option (List Char × Bool)}

/-- Neither a plain line nor a heading is a fence. -/
theorem isFence_eq (h : EndsAlike read line next) : isFence line = false := by
  rw [← trimEnd_append_drop line]
  rcases h.2 with ⟨-, hplain, -⟩ | ⟨-, hheading, -⟩
  · obtain ⟨k, c, rest, -, hc, htext⟩ := Markdown.isPlainLine_iff.1 hplain
    obtain ⟨hinner, -, -, -, htick, htilde, -⟩ := Markdown.isPlain_iff.1 hc
    rw [htext, List.append_assoc, List.cons_append]
    exact isFence_spaces hinner htick htilde k _
  · obtain ⟨k, rest, -, -, htext⟩ := Markdown.isHeadingLine_iff.1 hheading
    rw [htext, List.append_assoc, List.cons_append]
    exact isFence_spaces (by decide) (by decide) (by decide) k _

/-- Before a blank line there is no line break. -/
theorem keptLine_eq (h : EndsAlike read line next) : keptLine line next = Text.trimEnd line := by
  have hnext : next.any (fun next => !Text.allBlank next.1) = false := by
    cases next with
    | none => rfl
    | some next => exact congrArg not h.1
  rw [keptLine]
  dsimp only
  rw [hnext, Bool.and_false, if_neg Bool.false_ne_true, List.append_nil]

/-- The reader takes the line before a gap as it takes what is kept of it. -/
theorem readAll_eq (h : EndsAlike read line next) (o : Outline) {t : List (List Char)}
    (ht : IsGapped t) : o.readAll (read ++ (line ++ ['\n']) :: t)
      = o.readAll (read ++ (Text.trimEnd line ++ ['\n']) :: t) := by
  conv_lhs => rw [← trimEnd_append_drop line]
  rcases h.2 with ⟨hread, hplain, hblanks⟩ | ⟨rfl, hheading, hblanks⟩
  · exact o.readAll_paragraph hread hplain hblanks ht
  · exact o.readAll_heading hheading hblanks t

end EndsAlike

/-- A text whose lines outside fences are what minifying takes them for. -/
structure Orderly (s : List Char) : Prop where
  /-- Carriage returns stand at line ends only. -/
  returns : ∀ line ∈ Text.lines s, '\r' ∉ line
  /-- A line with text is kept as it is, or loses blanks that do not matter. -/
  texts : TextsStay [] (fencedLines s)
  /-- A line without text stands between blocks. -/
  blanks : ∀ (i : Nat) (line : List Char), (fencedLines s)[i]? = some (line, false) →
    Text.allBlank line = true →
      (∀ c ∈ line, c = ' ' ∨ c = '\t') ∧ (Markdown.gaps s)[i]? = some true

/-- The rest of an orderly text after the lines `read`, which the reader of Markdown has not
understood yet. -/
structure OrderlyFrom (o : Outline) (read : List (List Char)) (entries : List (List Char × Bool)) :
    Prop where
  feeds : ∀ entry ∈ entries, '\n' ∉ entry.1 ∧ '\r' ∉ entry.1
  texts : TextsStay read entries
  blanks : ∀ (i : Nat) (line : List Char), entries[i]? = some (line, false) →
    Text.allBlank line = true → (∀ c ∈ line, c = ' ' ∨ c = '\t') ∧
      (o.gapsFrom (read ++ fed (entries.map (·.1))))[read.length + i]? = some true

instance TextsStay.instDecidable : ∀ (read : List (List Char)) (entries : List (List Char × Bool)),
    Decidable (TextsStay read entries)
  | _, [] => .isTrue trivial
  | read, (line, true) :: rest => TextsStay.instDecidable (read ++ [line ++ ['\n']]) rest
  | read, (line, false) :: rest =>
    have := TextsStay.instDecidable [] rest
    have := TextsStay.instDecidable (read ++ [line ++ ['\n']]) rest
    inferInstanceAs (Decidable (if Text.allBlank line then TextsStay [] rest
      else (keptLine line rest.head? = line ∨ EndsAlike read line rest.head?) ∧
        TextsStay (read ++ [line ++ ['\n']]) rest))

/-- Behind a blank line nothing waits to be read. -/
theorem TextsStay.of_blank {read : List (List Char)} (h : TextsStay read ((line, false) :: entries))
    (hblank : Text.allBlank line = true) : TextsStay [] entries := by
  rwa [TextsStay, if_pos hblank] at h

/-- What is asked of a line with text, and of the lines after it. -/
theorem TextsStay.of_text {read : List (List Char)} (h : TextsStay read ((line, false) :: entries))
    (hblank : Text.allBlank line = false) :
    (keptLine line entries.head? = line ∨ EndsAlike read line entries.head?) ∧
      TextsStay (read ++ [line ++ ['\n']]) entries := by
  rwa [TextsStay, if_neg (by simp [hblank])] at h

namespace OrderlyFrom

variable {o : Outline} {read : List (List Char)} {fenced : Bool}

theorem isLine (h : OrderlyFrom o read entries) :
    ∀ line ∈ fed (entries.map (·.1)), IsLine line := by
  intro line hline
  obtain ⟨text, htext, rfl⟩ := List.mem_map.mp hline
  obtain ⟨entry, hentry, rfl⟩ := List.mem_map.mp htext
  exact isLine_append_feed (h.feeds entry hentry).1 (h.feeds entry hentry).2

/-- A line that is no gap joins those that are not understood yet. -/
theorem join (h : OrderlyFrom o read ((line, fenced) :: entries))
    (hline : fenced = true ∨ Text.allBlank line = false) :
    OrderlyFrom o (read ++ [line ++ ['\n']]) entries where
  feeds entry hentry := h.feeds entry (List.mem_cons_of_mem _ hentry)
  texts := by
    cases fenced with
    | true => exact h.texts
    | false => exact (h.texts.of_text (hline.resolve_left Bool.false_ne_true)).2
  blanks i text hi hblank := by
    obtain ⟨hspaces, hgap⟩ := h.blanks (i + 1) text hi hblank
    refine ⟨hspaces, ?_⟩
    rw [List.length_append, List.length_singleton, List.append_assoc, Nat.add_assoc, Nat.add_comm 1]
    exact hgap

/-- A blank line of an orderly text is a gap for the reader as well. -/
theorem isGap (h : OrderlyFrom o read ((line, false) :: entries))
    (hblank : Text.allBlank line = true) : IsGap (line ++ ['\n']) := by
  have hspaces := (h.blanks 0 line rfl hblank).1
  clear hblank h
  induction line with
  | nil => exact .stop
  | cons c line ih =>
    exact .cons (hspaces c List.mem_cons_self)
      (ih fun d hd => hspaces d (List.mem_cons_of_mem _ hd))

theorem isGapped (h : OrderlyFrom o read ((line, false) :: entries))
    (hblank : Text.allBlank line = true) : IsGapped (fed (line :: entries.map (·.1))) :=
  ⟨h.isLine, fun first hfirst => by cases hfirst; exact h.isGap hblank⟩

/-- At a gap the lines before it are understood, whatever comes from there on. -/
theorem exists_reach (h : OrderlyFrom o read ((line, false) :: entries))
    (hread : ∀ line ∈ read, IsLine line) (hblank : Text.allBlank line = true) :
    ∃ o' : Outline, (∀ t, IsGapped t → o.readAll (read ++ t) = o'.readAll t) ∧
      OrderlyFrom o' [] ((line, false) :: entries) := by
  obtain ⟨o', hreach, hgaps⟩ :=
    Outline.exists_reach hread (h.isGapped hblank) nofun (h.blanks 0 line rfl hblank).2
  have htexts : TextsStay [] ((line, false) :: entries) := by
    rw [TextsStay, if_pos hblank]
    exact h.texts.of_blank hblank
  refine ⟨o', hreach, h.feeds, htexts, fun i text hi hi' => ?_⟩
  obtain ⟨hspaces, hmeets⟩ := h.blanks i text hi hi'
  rw [← List.getElem?_drop, List.map_cons, hgaps] at hmeets
  exact ⟨hspaces, by rwa [List.nil_append, List.length_nil, Nat.zero_add, List.map_cons]⟩

/-- A gap that comes next is passed. -/
theorem skip (h : OrderlyFrom o [] ((line, false) :: entries))
    (hblank : Text.allBlank line = true) : OrderlyFrom o.pass [] entries := by
  refine ⟨fun entry hentry => h.feeds entry (List.mem_cons_of_mem _ hentry),
    h.texts.of_blank hblank, fun i text hi hi' => ?_⟩
  obtain ⟨hspaces, hmeets⟩ := h.blanks (i + 1) text hi hi'
  rw [List.nil_append, List.map_cons, fed, List.map_cons, Outline.gapsFrom_gap (h.isGap hblank),
    List.length_nil, Nat.zero_add, List.getElem?_cons_succ] at hmeets
  exact ⟨hspaces, by rwa [List.nil_append, List.length_nil, Nat.zero_add]⟩

/-- All that is kept consists of lines. -/
theorem isLine_freshLines (h : OrderlyFrom o read entries) (after : Bool) :
    ∀ line ∈ fed ((freshLines after entries).rdropWhile List.isEmpty), IsLine line := by
  intro line hline
  obtain ⟨kept, hkept, rfl⟩ := List.mem_map.mp hline
  have hfresh := List.rdropWhile_prefix List.isEmpty (freshLines after entries)
  have hends : ∀ c, c ≠ ' ' → (∀ entry ∈ entries, c ∉ entry.1) → c ∉ kept := fun c hc hfree hmem =>
    (mem_of_mem_freshLines (hfresh.subset hkept) hmem).elim hc
      fun ⟨entry, hentry, hin⟩ => hfree entry hentry hin
  exact isLine_append_feed (hends '\n' (by decide) fun entry hentry => (h.feeds entry hentry).1)
    (hends '\r' (by decide) fun entry hentry => (h.feeds entry hentry).2)

end OrderlyFrom

theorem rdropWhile_cons_of_ne_nil (hline : line ≠ []) (lines : List (List Char)) :
    (line :: lines).rdropWhile List.isEmpty = line :: lines.rdropWhile List.isEmpty := by
  rw [rdropWhile_cons, List.isEmpty_eq_false_iff.mpr hline, Bool.false_and,
    if_neg Bool.false_ne_true]

/-- What is kept of a line with text, and of the lines after it. -/
theorem keeps_text (hblank : Text.allBlank line = false) :
    (freshLines after ((line, false) :: entries)).rdropWhile List.isEmpty
      = keptLine line entries.head? :: (freshLines false entries).rdropWhile List.isEmpty := by
  rw [freshLines_text hblank, rdropWhile_cons_of_ne_nil (keptLine_ne_nil hblank _)]

/-- What is kept of a line between fences, and of the lines after it. -/
theorem keeps_fenced (h : 0 < rest.countP isFence) :
    (freshLines after ((line, true) :: fencedFrom true rest)).rdropWhile List.isEmpty
      = line :: (freshLines false (fencedFrom true rest)).rdropWhile List.isEmpty := by
  obtain ⟨kept, hkept, hne⟩ := exists_mem_freshLines false true h
  rw [freshLines_fenced, freshLines_inside _ false, rdropWhile_cons, if_neg]
  rw [Bool.and_eq_true, List.isEmpty_iff, List.isEmpty_iff, List.rdropWhile_eq_nil_iff]
  exact fun h => hne (List.isEmpty_iff.mp (h.2 kept hkept))

/-- What is kept of a blank line, and of the lines after it. -/
theorem keeps_blank (hblank : Text.allBlank line = true) :
    (freshLines after ((line, false) :: entries)).rdropWhile List.isEmpty
      = if after || ((freshLines true entries).rdropWhile List.isEmpty).isEmpty
        then (freshLines true entries).rdropWhile List.isEmpty
        else [] :: (freshLines true entries).rdropWhile List.isEmpty := by
  rw [freshLines_blank hblank]
  cases after with
  | true => rfl
  | false =>
    rw [if_neg Bool.false_ne_true, rdropWhile_cons, List.isEmpty_nil, Bool.true_and, Bool.false_or]
    split
    · next hnil => rw [List.isEmpty_iff.mp hnil]
    · rfl

/-- After the lines `read`, which are not understood yet, a reader takes the rest of a text as it
takes what minifying keeps of it. -/
def ReadsAlike (o : Outline) (read : List (List Char)) (inside : Bool)
    (lines : List (List Char)) : Prop :=
  (o.readAll (read ++ fed lines)).finish
    = (o.readAll (read ++ fed ((freshLines read.isEmpty
        (fencedFrom inside lines)).rdropWhile List.isEmpty))).finish

/-- Before a blank line or the end, the rest of what is kept starts with a gap. -/
theorem isGapped_kept
    (hnext : (fencedFrom false rest).head?.all (fun next => Text.allBlank next.1) = true)
    (hlines : ∀ line ∈ fed ((freshLines false (fencedFrom false rest)).rdropWhile List.isEmpty),
      IsLine line) :
    IsGapped (fed ((freshLines false (fencedFrom false rest)).rdropWhile List.isEmpty)) := by
  refine ⟨hlines, fun first hfirst => ?_⟩
  cases rest with
  | nil => cases hfirst
  | cons line rest =>
    cases hfence : isFence line with
    | true =>
      rw [fencedFrom_fence hfence] at hnext
      exact absurd (not_blank_of_isFence hfence) (by simpa using hnext)
    | false =>
      rw [fencedFrom_line hfence] at hnext hfirst
      rw [keeps_blank hnext] at hfirst
      split at hfirst
      · next hnone =>
        rw [Bool.false_or, List.isEmpty_iff] at hnone
        rw [hnone] at hfirst
        cases hfirst
      · cases hfirst
        exact .stop

namespace ReadsAlike

variable {o o' : Outline} {read : List (List Char)} {fenced inside' : Bool}

/-- A line that is kept as it is joins those that are not understood yet. -/
theorem join (h : ReadsAlike o (read ++ [line ++ ['\n']]) inside' lines)
    (hentries : fencedFrom inside (line :: lines) = (line, fenced) :: fencedFrom inside' lines)
    (hkept : (freshLines read.isEmpty
        ((line, fenced) :: fencedFrom inside' lines)).rdropWhile List.isEmpty
      = line :: (freshLines false (fencedFrom inside' lines)).rdropWhile List.isEmpty) :
    ReadsAlike o read inside (line :: lines) := by
  rw [ReadsAlike, List.isEmpty_eq_false_iff.mpr (by simp), List.append_assoc,
    List.append_assoc] at h
  rw [ReadsAlike, hentries, hkept]
  exact h

/-- A line whose blanks at the end do not matter joins the others without them. -/
theorem trim (h : ReadsAlike o (read ++ [line ++ ['\n']]) false lines)
    (hends : EndsAlike read line (fencedFrom false lines).head?)
    (hblank : Text.allBlank line = false)
    (hentries : fencedFrom false (line :: lines) = (line, false) :: fencedFrom false lines)
    (hlines : ∀ line ∈ fed ((freshLines false (fencedFrom false lines)).rdropWhile List.isEmpty),
      IsLine line) : ReadsAlike o read false (line :: lines) := by
  have hgapped := isGapped_kept hends.1 hlines
  rw [ReadsAlike, List.isEmpty_eq_false_iff.mpr (by simp), List.append_assoc,
    List.append_assoc] at h
  rw [ReadsAlike, hentries, keeps_text hblank, hends.keptLine_eq]
  exact h.trans (congrArg Outline.finish (hends.readAll_eq o hgapped))

/-- A blank line with nothing before it that is not understood yet is not kept. -/
theorem skip (h : ReadsAlike o.pass [] false lines) (hpass : o.pass = o)
    (hgap : IsGap (line ++ ['\n'])) (hblank : Text.allBlank line = true)
    (hentries : fencedFrom false (line :: lines) = (line, false) :: fencedFrom false lines) :
    ReadsAlike o [] false (line :: lines) := by
  rw [ReadsAlike, hpass] at h
  rw [ReadsAlike, hentries, keeps_blank hblank, List.isEmpty_nil, Bool.true_or, if_pos rfl,
    List.nil_append, fed, List.map_cons, Outline.readAll_gap hgap, hpass]
  exact h

/-- At a blank line that is a gap the lines before it are understood, both in the text and in what
is kept of it: an empty line, or the end. -/
theorem reach (h : ReadsAlike o'.pass [] false lines) (hread : read ≠ [])
    (hreach : ∀ t, IsGapped t → o.readAll (read ++ t) = o'.readAll t)
    (horderly : OrderlyFrom o' [] ((line, false) :: fencedFrom false lines))
    (hblank : Text.allBlank line = true)
    (hentries : fencedFrom false (line :: lines) = (line, false) :: fencedFrom false lines) :
    ReadsAlike o read false (line :: lines) := by
  have hkept := (horderly.skip hblank).isLine_freshLines true
  have hgapped := horderly.isGapped hblank
  rw [fencedFrom_map] at hgapped
  rw [ReadsAlike, List.isEmpty_nil, List.nil_append, List.nil_append] at h
  rw [ReadsAlike, hentries, keeps_blank hblank]
  generalize (freshLines true (fencedFrom false lines)).rdropWhile List.isEmpty = kept at h hkept ⊢
  rw [hreach _ hgapped, fed, List.map_cons, Outline.readAll_gap (horderly.isGap hblank), ← fed, h,
    List.isEmpty_eq_false_iff.mpr hread, Bool.false_or]
  cases kept with
  | nil =>
    rw [List.isEmpty_nil, if_pos rfl, show fed [] = [] from rfl, hreach [] .nil]
    exact o'.finish_pass
  | cons next kept =>
    have hfeed : IsGapped (fed ([] :: next :: kept)) :=
      ⟨List.forall_mem_cons.mpr ⟨.stop, hkept⟩, fun s hs => by cases hs; exact .stop⟩
    rw [List.isEmpty_cons, if_neg Bool.false_ne_true, hreach _ hfeed]
    exact congrArg Outline.finish (Outline.readAll_gap IsGap.stop).symm

end ReadsAlike

/-- **Minifying does not change what is read**, by induction on the lines: those up to the next gap
wait in `read`, with the outline as it was before them. -/
theorem OrderlyFrom.readsAlike {o : Outline} {read : List (List Char)}
    (horderly : OrderlyFrom o read (fencedFrom inside lines))
    (hread : ∀ line ∈ read, IsLine line) (hpass : o.pass = o)
    (hfences : lines.countP isFence % 2 = if inside then 1 else 0) :
    ReadsAlike o read inside lines := by
  induction lines generalizing inside o read with
  | nil => rfl
  | cons line lines ih =>
    have hjoin : ∀ {fenced inside' : Bool},
        OrderlyFrom o read ((line, fenced) :: fencedFrom inside' lines) →
        fenced = true ∨ Text.allBlank line = false →
        lines.countP isFence % 2 = (if inside' then 1 else 0) →
        ReadsAlike o (read ++ [line ++ ['\n']]) inside' lines := by
      intro fenced inside' horderly htext hparity
      have hline : IsLine (line ++ ['\n']) := horderly.isLine _ List.mem_cons_self
      refine ih (horderly.join htext) (fun s hs => ?_) hpass hparity
      exact (List.mem_append.mp hs).elim (hread s) fun hs => List.eq_of_mem_singleton hs ▸ hline
    cases hfence : isFence line with
    | true =>
      have hentries : fencedFrom inside (line :: lines) = _ := fencedFrom_fence hfence
      rw [hentries] at horderly
      -- a mark changes sides, and the number of marks to come says on which side the end is
      have hparity : lines.countP isFence % 2 = if !inside then 1 else 0 := by
        rw [List.countP_cons_of_pos hfence] at hfences
        cases inside <;> simp at hfences ⊢ <;> omega
      have hblank := not_blank_of_isFence hfence
      have hkept : keptLine line (fencedFrom (!inside) lines).head? = line :=
        (horderly.texts.of_text hblank).1.resolve_right fun hends => by
          rw [hends.isFence_eq] at hfence
          cases hfence
      exact (hjoin horderly (.inr hblank) hparity).join hentries
        ((keeps_text hblank).trans (by rw [hkept]))
    | false =>
      have hentries : fencedFrom inside (line :: lines) = _ := fencedFrom_line hfence
      rw [hentries] at horderly
      rw [List.countP_cons_of_neg (by simp [hfence])] at hfences
      cases inside with
      | true =>
        rw [if_pos rfl] at hfences
        -- between marks lines are kept as they are
        exact (hjoin horderly (.inl rfl) hfences).join hentries (keeps_fenced (by omega))
      | false =>
        cases hblank : Text.allBlank line with
        | false =>
          have hlines := hjoin horderly (.inr hblank) hfences
          rcases (horderly.texts.of_text hblank).1 with hkept | hends
          · exact hlines.join hentries ((keeps_text hblank).trans (by rw [hkept]))
          · exact hlines.trim hends hblank hentries
              ((horderly.join (.inr hblank)).isLine_freshLines false)
        | true =>
          cases read with
          -- a blank line at the start of a block is passed over
          | nil =>
            have hlines := ih (horderly.skip hblank) (List.forall_mem_nil _) o.pass_pass hfences
            exact hlines.skip hpass (horderly.isGap hblank) hblank hentries
          | cons first read =>
            -- any other blank line ends the block that has been read
            obtain ⟨o', hreach, horderly'⟩ := horderly.exists_reach hread hblank
            have hlines := ih (horderly'.skip hblank) (List.forall_mem_nil _) o'.pass_pass hfences
            exact hlines.reach (List.cons_ne_nil _ _) hreach horderly' hblank hentries

/-! ## Problems

A check lists problems, and a theorem about valid texts needs to know what an empty list of problems
says.  Only two of the problems matter here. -/

/-- What it means that a text has a problem. -/
def HasProblem (s : List Char) : MarkdownProblem → Prop
  | .missingFinalNewline => s ≠ [] ∧ s.getLast? ≠ some '\n'
  | .unclosedFence => (Text.lines s).countP isFence % 2 = 1
  | .inconsistentMarks marks => marks = itemMarks (fencedLines s) ∧ 1 < marks.length
  | .undefinedReference label => label ∈ (Markdown.read s).undefined

theorem countP_fencedLines (s : List Char) :
    (fencedLines s).countP (fun entry => isFence entry.1) = (Text.lines s).countP isFence := by
  conv_rhs => rw [← fencedFrom_map false (Text.lines s), List.countP_map]
  rfl

/-- **The problems that are listed are those that a text has.** -/
theorem mem_markdownProblems_iff {problem : MarkdownProblem} :
    problem ∈ markdownProblems s ↔ HasProblem s problem := by
  rw [markdownProblems, countP_fencedLines]
  simp only [List.mem_append, List.mem_ite_nil_left, List.mem_singleton, List.mem_map]
  cases problem with
  | missingFinalNewline => simp [HasProblem]
  | unclosedFence => simp [HasProblem]
  | undefinedReference label => simp [HasProblem]
  | inconsistentMarks marks =>
    simp only [HasProblem, reduceCtorEq, and_false, or_false, exists_false, false_or,
      MarkdownProblem.inconsistentMarks.injEq, not_le]
    constructor
    · rintro ⟨hmany, rfl⟩
      exact ⟨rfl, hmany⟩
    · rintro ⟨rfl, hmany⟩
      exact ⟨hmany, rfl⟩

/-- A text without problems ends a line, and its fences come in pairs. -/
theorem markdownProblems_eq_nil (h : markdownProblems s = []) :
    (s = [] ∨ IsEnded s) ∧ (Text.lines s).countP isFence % 2 = 0 := by
  have hnone : ∀ problem, ¬HasProblem s problem := fun problem hproblem => by
    have hmem := mem_markdownProblems_iff.2 hproblem
    rw [h] at hmem
    cases hmem
  have hended := hnone .missingFinalNewline
  have hfences := hnone .unclosedFence
  simp only [HasProblem, Nat.mod_two_not_eq_one] at hended hfences
  exact ⟨or_iff_not_imp_left.2 fun hne => not_not.1 fun hlast => hended ⟨hne, hlast⟩, hfences⟩

/-- An orderly text is orderly from its first line on. -/
theorem Orderly.orderlyFrom (h : Orderly s) (hs : s = [] ∨ IsEnded s) :
    OrderlyFrom .start [] (fencedLines s) := by
  obtain ⟨hlines, hfeeds⟩ := linesOf_eq hs h.returns
  have hmap : (fencedLines s).map (·.1) = Text.lines s := fencedFrom_map false _
  refine ⟨fun entry hentry => ?_, h.texts, fun i line hi hblank => ?_⟩
  · have hline : entry.1 ∈ Text.lines s := hmap ▸ List.mem_map_of_mem hentry
    exact ⟨hfeeds _ hline, h.returns _ hline⟩
  · obtain ⟨hspaces, hgap⟩ := h.blanks i line hi hblank
    rw [Markdown.gaps, hlines, ← Outline.gapsFrom_start] at hgap
    rw [hmap, List.nil_append, List.length_nil, Nat.zero_add]
    exact ⟨hspaces, hgap⟩

/-- An orderly text has the same blocks and definitions when it is minified. -/
theorem outline_minifyMarkdown (hvalid : markdownProblems s = []) (h : Orderly s) :
    Markdown.outline (minifyMarkdown s) = Markdown.outline s := by
  obtain ⟨hs, hfences⟩ := markdownProblems_eq_nil hvalid
  have horderly := h.orderlyFrom hs
  obtain ⟨hlines, -⟩ := linesOf_eq hs h.returns
  have hkept := Markdown.linesOf_flatten (horderly.isLine_freshLines true)
  have hread := horderly.readsAlike (List.forall_mem_nil _) Outline.start_pass hfences
  rw [Outline.outline_eq, Outline.outline_eq, minifyMarkdown_eq, ← fed, hkept, hlines,
    ← Outline.readAll_start, ← Outline.readAll_start]
  exact hread.symm

/-- **Minifying an orderly text does not change its page.**  The text has no problems, minifying
takes nothing from its lines with text but blanks at the end of a plain paragraph or a heading, and
each blank line outside fences stands between the blocks of the document. -/
theorem toHtml_minifyMarkdown (s : List Char) (hvalid : markdownProblems s = []) (h : Orderly s) :
    Markdown.toHtml (minifyMarkdown s) = Markdown.toHtml s := by
  rw [Markdown.toHtml, Markdown.toHtml, Markdown.read, Markdown.read,
    outline_minifyMarkdown hvalid h]

/-! ## Texts that are orderly, and one that is not

Whether a text is orderly can be decided, so that examples need no proof by hand.  The last of them
is why there is something to be asked of texts at all. -/

/-- Whether a line of a text stands between blocks, if it is blank and stands outside fences. -/
def isBetween (s : List Char) (i : Nat) : Bool :=
  match (fencedLines s)[i]? with
  | some (line, false) =>
    !Text.allBlank line ||
      (line.all (fun c => c == ' ' || c == '\t') && (Markdown.gaps s)[i]? == some true)
  | _ => true

/-- Whether a text is orderly is checked line by line. -/
theorem orderly_iff (s : List Char) : Orderly s ↔ (∀ line ∈ Text.lines s, '\r' ∉ line) ∧
    TextsStay [] (fencedLines s) ∧ ∀ i < (fencedLines s).length, isBetween s i = true := by
  constructor
  · rintro ⟨hreturns, htexts, hblanks⟩
    refine ⟨hreturns, htexts, fun i _ => ?_⟩
    rw [isBetween]
    split
    · next line hline =>
      cases hblank : Text.allBlank line with
      | false => rfl
      | true =>
        obtain ⟨hspaces, hgap⟩ := hblanks i line hline hblank
        simpa [hgap] using hspaces
    · rfl
  · rintro ⟨hreturns, htexts, hlines⟩
    refine ⟨hreturns, htexts, fun i line hi hblank => ?_⟩
    have hline := hlines i (List.getElem?_eq_some_iff.mp hi).1
    rw [isBetween, hi] at hline
    dsimp only at hline
    rw [hblank, Bool.not_true, Bool.false_or, Bool.and_eq_true, beq_iff_eq] at hline
    exact ⟨by simpa using hline.1, hline.2⟩

instance (s : List Char) : Decidable (Orderly s) := decidable_of_iff _ (orderly_iff s).symm

/-- A note with blank lines at its ends, in a list and in code, and with blanks at the ends of a
heading and a paragraph. -/
def spacedNote : List Char :=
  ("\n\n# A  \n\n\n- b\n \t\n\n- c  \n  d\n\nf\ng \t\n\n"
    ++ "\x60\x60\x60\ne   \n\n\n\x60\x60\x60\n\n\n").toList

/-- The note is orderly, and minifying changes it but not its page. -/
theorem spacedNote_toHtml_minifyMarkdown :
    minifyMarkdown spacedNote
        = "# A\n\n- b\n\n- c  \n  d\n\nf\ng\n\n\x60\x60\x60\ne   \n\n\n\x60\x60\x60\n".toList ∧
      Markdown.toHtml (minifyMarkdown spacedNote) = Markdown.toHtml spacedNote :=
  ⟨by decide +kernel, toHtml_minifyMarkdown spacedNote (by decide +kernel) (by decide +kernel)⟩

/-- Code between fences of backticks, in which a line and a fence of tildes stand. -/
def nestedFences : List Char := "\x60\x60\x60\n~~~\nkeep   \n~~~\n\x60\x60\x60\n".toList

/-- **Minifying may change a page.**  The fences of tildes are a part of the code, and so is the
line between them, which loses a blank. -/
theorem exists_toHtml_minifyMarkdown_ne : ∃ s, markdownProblems s = [] ∧
    Markdown.toHtml (minifyMarkdown s) ≠ Markdown.toHtml s :=
  ⟨nestedFences, by decide +kernel, by decide +kernel⟩

end Artifact
end Frontispiece
