import Frontispiece.Proofs.Artifact.Fence
import Frontispiece.Proofs.Artifact.Skeleton
import Mathlib.Data.Char
import Mathlib.Data.List.DropRight
import Mathlib.Data.List.Nodup
import Mathlib.Data.List.Perm.Subperm
import Mathlib.Data.List.TakeWhile

/-!
# The normal form of Markdown

Minifying looks back at the lines that it kept and ahead at the next line, and drops lines at the end
when it is done.  What comes out is in normal form: read again, its fences are the fences of the
text, and there is nothing left to take out.

## What is here

* `freshEntries` — the lines that are kept with whether they stand between fences, and
  `fencedLines_minifyMarkdown`: these are what is found when the minified text is read again.
* `TidyFrom` — lines from which nothing is taken out, and `IsNormal`, which says it of lines and
  their neighbours.
* `substance` — what minifying keeps of the lines of a text.
* `hasBareBreak` — a list mark with nothing but blanks after it may become an item.
* `minifyMarkdown_normal` — all of this for the minified text, and the problems that it does not
  have.  `exists_inconsistentMarks_minifyMarkdown` has a text that gets a problem.

What has to be looked at are the ends of lines.  A line keeps two spaces there only if it had them
and a line with text comes next; after one pass it has them exactly if it was kept with them, and
the next line has text exactly if it had.  So the second pass comes to the same answer for each
line, and it finds the same fences because what a line starts with is not touched.

Problems are another matter.  The check for list marks looks at what follows a mark, which is what
trimming changes, and so there is a text which has that problem only after it was minified.
-/

set_option autoImplicit false

namespace Frontispiece
namespace Artifact

variable {line : List Char} {lines : List (List Char)} {s : List Char} {inside after fenced : Bool}
  {entries rest : List (List Char × Bool)} {next : Option (List Char × Bool)}

/-! ## One line

A line is kept with or without two spaces at its end, depending on the line that comes after it.  To
minify a second time is to ask the same of what was kept, so all of this is about the ends of lines.
-/

/-- A line that comes next has text. -/
def hasText (next : Option (List Char × Bool)) : Bool :=
  next.any fun entry => !Text.allBlank entry.1

theorem hasText_iff : hasText next = true ↔ ∃ entry ∈ next, Text.allBlank entry.1 = false := by
  cases next with
  | none => simp [hasText]
  | some entry => simp [hasText]

theorem keptLine_congr {other : Option (List Char × Bool)} (h : hasText next = hasText other)
    (line : List Char) : keptLine line next = keptLine line other := by
  rw [hasText, hasText] at h
  rw [keptLine, keptLine, h]

/-- A line is kept with two spaces at its end, or without blanks there. -/
theorem keptLine_cases (line : List Char) (next : Option (List Char × Bool)) :
    keptLine line next = Text.trimEnd line ∨
      keptLine line next = Text.trimEnd line ++ [' ', ' '] ∧ hasText next = true ∧
        Text.endsWith [' ', ' '] line = true := by
  rw [keptLine, hasText]
  dsimp only
  split
  · next h =>
    rw [Bool.and_eq_true] at h
    exact .inr ⟨rfl, h.2, h.1⟩
  · exact .inl (List.append_nil _)

theorem trimEnd_trimEnd (line : List Char) : Text.trimEnd (Text.trimEnd line) = Text.trimEnd line := by
  rw [trimEnd_eq, trimEnd_eq, List.rdropWhile_idempotent]

/-- Blanks at the end do not change what is left without them. -/
theorem trimEnd_append_blank {blanks : List Char} (h : Text.allBlank blanks = true)
    (line : List Char) : Text.trimEnd (line ++ blanks) = Text.trimEnd line := by
  have hall : ∀ c ∈ blanks.reverse, Text.isBlank c = true := by
    simpa [Text.allBlank] using h
  rw [trimEnd_eq, trimEnd_eq, List.rdropWhile, List.rdropWhile, List.reverse_append,
    List.dropWhile_append_of_pos hall]

theorem trimEnd_keptLine (line : List Char) (next : Option (List Char × Bool)) :
    Text.trimEnd (keptLine line next) = Text.trimEnd line := by
  rcases keptLine_cases line next with h | ⟨h, -⟩
  · rw [h, trimEnd_trimEnd]
  · rw [h, trimEnd_append_blank (by decide), trimEnd_trimEnd]

theorem allBlank_iff : Text.allBlank line = true ↔ Text.trimEnd line = [] := by
  rw [trimEnd_eq, List.rdropWhile_eq_nil_iff, Text.allBlank, List.all_eq_true]

theorem allBlank_keptLine (line : List Char) (next : Option (List Char × Bool)) :
    Text.allBlank (keptLine line next) = Text.allBlank line := by
  rw [Bool.eq_iff_iff, allBlank_iff, allBlank_iff, trimEnd_keptLine]

/-- What is left without blanks at its end does not end in a space. -/
theorem endsWith_trimEnd (line : List Char) :
    Text.endsWith [' ', ' '] (Text.trimEnd line) = false := by
  by_contra h
  obtain ⟨start, hstart⟩ := Text.endsWith_iff.1 (by simpa using h)
  have hspaces : Text.allBlank [' ', ' '] = true := by decide
  have htrim := trimEnd_append_blank hspaces start
  rw [hstart, trimEnd_trimEnd] at htrim
  have hlength := congrArg List.length (hstart.trans htrim)
  have hle : (Text.trimEnd start).length ≤ start.length := by
    rw [trimEnd_eq]
    exact (List.rdropWhile_prefix _ _).length_le
  simp at hlength
  omega

/-- **A line that was kept is kept as it is**, before a line with text if it was before one. -/
theorem keptLine_keptLine {other : Option (List Char × Bool)} (h : hasText next = hasText other)
    (line : List Char) : keptLine (keptLine line next) other = keptLine line next := by
  rcases keptLine_cases line next with hkept | ⟨hkept, htext, -⟩
  · rcases keptLine_cases (keptLine line next) other with hagain | ⟨-, -, hends⟩
    · rw [hagain, trimEnd_keptLine, hkept]
    · rw [hkept, endsWith_trimEnd] at hends
      cases hends
  · have hends : Text.endsWith [' ', ' '] (keptLine line next) = true := by
      rw [hkept, Text.endsWith_iff]
      exact List.suffix_append _ _
    have hother : (other.any fun entry => !Text.allBlank entry.1) = true := h.symm.trans htext
    rw [keptLine, hends, hother, trimEnd_keptLine, hkept]
    rfl

/-! ## Where the text of a line starts

Fences and items are found by the first characters of a line that are not blank.  Blanks at the end
are far from there unless nothing else is in the line. -/

/-- A line with text is what is before its first character that is not blank, and what starts
there. -/
theorem exists_mark (h : Text.allBlank line = false) : ∃ lead mark body,
    line = lead ++ mark :: body ∧ Text.allBlank lead = true ∧ Text.isBlank mark = false := by
  induction line with
  | nil => cases h
  | cons c line ih =>
    cases hc : Text.isBlank c with
    | false => exact ⟨[], c, line, rfl, rfl, hc⟩
    | true =>
      rw [Text.allBlank, List.all_cons, hc, Bool.true_and] at h
      obtain ⟨lead, mark, body, rfl, hlead, hmark⟩ := ih h
      refine ⟨c :: lead, mark, body, rfl, ?_, hmark⟩
      rw [Text.allBlank, List.all_cons, hc, Bool.true_and]
      exact hlead

section

variable {lead body : List Char} {mark : Char}

theorem trimStart_mark (hlead : Text.allBlank lead = true) (hmark : Text.isBlank mark = false)
    (body : List Char) : Text.trimStart (lead ++ mark :: body) = mark :: body := by
  rw [Text.trimStart, List.dropWhile_append_of_pos (List.all_eq_true.1 hlead),
    List.dropWhile_cons_of_neg (by simp [hmark])]

/-- A line keeps its mark where it was, and after it everything but blanks at the end; two of these
may stay for a line break. -/
theorem keptLine_mark (hmark : Text.isBlank mark = false) (lead body : List Char)
    (next : Option (List Char × Bool)) : ∃ tail,
    keptLine (lead ++ mark :: body) next = lead ++ mark :: (Text.trimEnd body ++ tail) ∧
      (tail = [] ∨ tail = [' ', ' '] ∧ hasText next = true ∧
        Text.endsWith [' ', ' '] (lead ++ mark :: body) = true) := by
  have htrim : Text.trimEnd (lead ++ mark :: body) = lead ++ mark :: Text.trimEnd body := by
    rw [trimEnd_append, trimEnd_cons hmark]
    rw [trimEnd_cons hmark]
    exact List.cons_ne_nil _ _
  rcases keptLine_cases (lead ++ mark :: body) next with h | ⟨h, hbreak⟩
  · exact ⟨[], by rw [h, htrim, List.append_nil], .inl rfl⟩
  · exact ⟨[' ', ' '], by rw [h, htrim, List.append_assoc, List.cons_append], .inr ⟨rfl, hbreak⟩⟩

end

theorem trim_of_allBlank (h : Text.allBlank line = true) : Text.trim line = [] := by
  have hstart : Text.trimStart line = [] := List.dropWhile_eq_nil_iff.2 (List.all_eq_true.1 h)
  rw [Text.trim, hstart]
  rfl

/-- **What is kept of a line is the line, but for blanks at its ends.** -/
theorem trim_keptLine (line : List Char) (next : Option (List Char × Bool)) :
    Text.trim (keptLine line next) = Text.trim line := by
  cases hblank : Text.allBlank line with
  | true => rw [trim_of_allBlank hblank, trim_of_allBlank ((allBlank_keptLine line next).trans hblank)]
  | false =>
    obtain ⟨lead, mark, body, rfl, hlead, hmark⟩ := exists_mark hblank
    obtain ⟨tail, hkept, htail⟩ := keptLine_mark hmark lead body next
    have hblanks : Text.allBlank tail = true := by
      rcases htail with rfl | ⟨rfl, -⟩ <;> rfl
    rw [hkept, Text.trim, Text.trim, trimStart_mark hlead hmark, trimStart_mark hlead hmark,
      trimEnd_cons hmark, trimEnd_cons hmark, trimEnd_append_blank hblanks, trimEnd_trimEnd]

/-- A word at the start of a text is there without the blanks at the end. -/
theorem startsWith_trimEnd {word : List Char} (hword : ∀ c ∈ word, Text.isBlank c = false) :
    ∀ s : List Char, Text.startsWith word (Text.trimEnd s) = Text.startsWith word s := by
  intro s
  rw [Bool.eq_iff_iff, Text.startsWith_iff, Text.startsWith_iff]
  refine ⟨fun h => h.trans (trimEnd_eq s ▸ List.rdropWhile_prefix _ _), ?_⟩
  rintro ⟨body, rfl⟩
  cases hblank : Text.allBlank body with
  | true =>
    have hself : Text.trimEnd word = word := by
      rw [trimEnd_eq, List.rdropWhile_eq_self_iff]
      exact fun hne => by simp [hword _ (List.getLast_mem hne)]
    rw [trimEnd_append_blank hblank, hself]
  | false =>
    rw [trimEnd_append (trimEnd_ne_nil hblank)]
    exact List.prefix_append _ _

/-- Blanks at its end do not make a line a fence. -/
theorem isFence_keptLine (line : List Char) (next : Option (List Char × Bool)) :
    isFence (keptLine line next) = isFence line := by
  have htrim : ∀ line : List Char, isFence line
      = (Text.startsWith ['\x60', '\x60', '\x60'] (Text.trim line)
        || Text.startsWith ['~', '~', '~'] (Text.trim line)) := by
    intro line
    have hthree : ∀ mark : Char, Text.isBlank mark = false →
        ∀ c ∈ [mark, mark, mark], Text.isBlank c = false := by simp
    rw [isFence, Text.trim, startsWith_trimEnd (hthree '\x60' (by decide)),
      startsWith_trimEnd (hthree '~' (by decide))]
  rw [htrim, htrim, trim_keptLine]

/-! ## The lines of the minified text

The second pass splits the minified text into lines again and looks for fences again.  Both give
what the first pass had, and with it whether each kept line stands between fences. -/

/-- The lines that are kept, first to last, each with whether it stands between two fences. -/
def freshEntries (after : Bool) : List (List Char × Bool) → List (List Char × Bool)
  | [] => []
  | (line, true) :: rest => (line, true) :: freshEntries line.isEmpty rest
  | (line, false) :: rest =>
    if Text.allBlank line then
      if after then freshEntries true rest else ([], false) :: freshEntries true rest
    else (keptLine line rest.head?, false) :: freshEntries false rest

theorem freshEntries_blank (h : Text.allBlank line = true) :
    freshEntries after ((line, false) :: rest)
      = if after then freshEntries true rest else ([], false) :: freshEntries true rest := by
  rw [freshEntries, if_pos h]

theorem freshEntries_text (h : Text.allBlank line = false) :
    freshEntries after ((line, false) :: rest)
      = (keptLine line rest.head?, false) :: freshEntries false rest := by
  rw [freshEntries, if_neg (by simp [h])]

/-- The lines that are kept, without the side of the fences on which they stand. -/
theorem map_freshEntries (after : Bool) (entries : List (List Char × Bool)) :
    (freshEntries after entries).map Prod.fst = freshLines after entries := by
  fun_induction freshEntries after entries with
  | case1 => rfl
  | case2 after line rest ih => rw [List.map_cons, ih, freshLines_fenced]
  | case3 line rest hblank ih => rw [ih, freshLines_blank hblank, if_pos rfl]
  | case4 after line rest hblank hafter ih =>
    rw [List.map_cons, ih, freshLines_blank hblank, if_neg hafter]
  | case5 after line rest hblank ih =>
    rw [List.map_cons, ih, freshLines_text (by simpa using hblank)]

/-- A line is between fences or turns the next ones into such, or out of them. -/
theorem fencedFrom_cons (inside : Bool) (line : List Char) (lines : List (List Char)) :
    fencedFrom inside (line :: lines)
      = (line, !isFence line && inside) :: fencedFrom (inside != isFence line) lines := by
  cases hfence : isFence line with
  | true => rw [fencedFrom_fence hfence, Bool.bne_true]; rfl
  | false => rw [fencedFrom_line hfence, Bool.bne_false]; rfl

/-- **What is kept has the fences that it had**, by induction on the lines. -/
theorem fencedFrom_freshLines (inside after : Bool) (lines : List (List Char)) :
    fencedFrom inside (freshLines after (fencedFrom inside lines))
      = freshEntries after (fencedFrom inside lines) := by
  induction lines generalizing inside after with
  | nil => rfl
  | cons line lines ih =>
    have hempty : isFence [] = false := by decide
    rw [fencedFrom_cons]
    cases hfence : isFence line with
    | true =>
      have htext := not_blank_of_isFence hfence
      simp only [Bool.not_true, Bool.false_and]
      rw [freshLines_text htext, freshEntries_text htext, fencedFrom_cons, isFence_keptLine, hfence,
        ih]
      rfl
    | false =>
      cases inside with
      | true =>
        simp only [Bool.not_false, Bool.and_self]
        rw [freshLines_fenced, freshEntries, fencedFrom_cons, hfence, ih]
        rfl
      | false =>
        simp only [Bool.not_false, Bool.true_and]
        cases hblank : Text.allBlank line with
        | true =>
          rw [freshLines_blank hblank, freshEntries_blank hblank]
          cases after with
          | true => exact ih false true
          | false =>
            rw [if_neg Bool.false_ne_true, if_neg Bool.false_ne_true, fencedFrom_cons, hempty]
            exact congrArg _ (ih false true)
        | false =>
          rw [freshLines_text hblank, freshEntries_text hblank, fencedFrom_cons, isFence_keptLine,
            hfence, ih]
          rfl

/-- The lines of a minified text, each with whether it stands between two fences. -/
def keptEntries (s : List Char) : List (List Char × Bool) :=
  (freshEntries true (fencedLines s)).rdropWhile fun entry => entry.1.isEmpty

/-- Empty lines at the end open no fence, so that it does not matter when they are dropped. -/
theorem fencedFrom_rdropWhile (inside : Bool) (lines : List (List Char)) :
    fencedFrom inside (lines.rdropWhile List.isEmpty)
      = (fencedFrom inside lines).rdropWhile fun entry => entry.1.isEmpty := by
  induction lines generalizing inside with
  | nil => rfl
  | cons line lines ih =>
    have hnil : (lines.rdropWhile List.isEmpty).isEmpty
        = ((fencedFrom (inside != isFence line) lines).rdropWhile fun entry =>
          entry.1.isEmpty).isEmpty := by
      rw [← ih]
      cases lines.rdropWhile List.isEmpty with
      | nil => rfl
      | cons first rest => rw [fencedFrom_cons]; rfl
    rw [fencedFrom_cons, rdropWhile_cons, rdropWhile_cons, ← hnil, ← ih]
    split
    · rfl
    · rw [fencedFrom_cons]

/-- A text is cut into lines at every line feed. -/
theorem feed_notMem_of_mem_lines (h : line ∈ Text.lines s) : '\n' ∉ line := by
  have hpieces : ∀ piece ∈ Text.splitOn (· == '\n') s, '\n' ∉ piece := fun piece hpiece hmem => by
    simpa using Text.free_of_mem_splitOn hpiece '\n' hmem
  rw [Text.lines] at h
  split at h
  · cases h
  · next last before hsplit =>
    have hmem : ∀ piece, piece = last ∨ piece ∈ before → piece ∈ Text.splitOn (· == '\n') s :=
      fun piece hpiece => by
        rw [← List.mem_reverse, hsplit, List.mem_cons]
        exact hpiece
    rcases List.mem_append.1 h with h | h
    · obtain ⟨piece, hpiece, rfl⟩ := List.mem_map.1 h
      exact fun hfeed => hpieces piece (hmem piece (.inr (List.mem_reverse.1 hpiece)))
        (dropReturn_subset piece hfeed)
    · split at h
      · cases h
      · obtain rfl := List.mem_singleton.1 h
        exact hpieces line (hmem line (.inl rfl))

/-- Lines with line feeds are read back. -/
theorem lines_fed (h : ∀ line ∈ lines, '\n' ∉ line ∧ '\r' ∉ line) :
    Text.lines (fed lines).flatten = lines := by
  induction lines with
  | nil => rfl
  | cons line lines ih =>
    obtain ⟨hfeed, hreturn⟩ := h line List.mem_cons_self
    have hkept : Text.dropReturn line = line := by
      rw [Text.dropReturn]
      split
      · next hlast => exact absurd (List.mem_of_getLast? hlast) hreturn
      · rfl
    rw [fed, List.map_cons, List.flatten_cons, List.append_assoc, List.singleton_append,
      lines_feed hfeed, hkept, ← fed, ih fun line hline => h line (List.mem_cons_of_mem _ hline)]

/-- What a kept line comes from: it is an empty line, a line between fences, or a line with text that
is kept before the lines that come after it. -/
inductive IsKeptOf (entries : List (List Char × Bool)) : List Char × Bool → Prop where
  | empty : IsKeptOf entries ([], false)
  | fenced {line : List Char} (hmem : (line, true) ∈ entries) : IsKeptOf entries (line, true)
  | text {before rest : List (List Char × Bool)} {line : List Char}
    (hentries : entries = before ++ (line, false) :: rest) (htext : Text.allBlank line = false) :
    IsKeptOf entries (keptLine line rest.head?, false)

/-- A line that is kept of some lines is kept of more of them. -/
theorem IsKeptOf.cons {entry : List Char × Bool} (h : IsKeptOf entries entry)
    (first : List Char × Bool) : IsKeptOf (first :: entries) entry := by
  cases h with
  | empty => exact .empty
  | fenced hmem => exact .fenced (List.mem_cons_of_mem _ hmem)
  | @text before rest line hentries htext =>
    have hmore : first :: entries = (first :: before) ++ (line, false) :: rest := by
      rw [hentries, List.cons_append]
    exact .text hmore htext

/-- **Every kept line comes from a line of the text**, or is empty. -/
theorem isKeptOf_of_mem {entry : List Char × Bool} (h : entry ∈ freshEntries after entries) :
    IsKeptOf entries entry := by
  fun_induction freshEntries after entries with
  | case1 => cases h
  | case2 after line rest ih =>
    rcases List.mem_cons.1 h with rfl | h
    · exact .fenced List.mem_cons_self
    · exact (ih h).cons _
  | case3 line rest hblank ih => exact (ih h).cons _
  | case4 after line rest hblank hafter ih =>
    rcases List.mem_cons.1 h with rfl | h
    · exact .empty
    · exact (ih h).cons _
  | case5 after line rest hblank ih =>
    rcases List.mem_cons.1 h with rfl | h
    · exact .text (List.nil_append _).symm (by simpa using hblank)
    · exact (ih h).cons _

/-- A kept line has characters of its line, and spaces. -/
theorem notMem_of_mem_freshEntries {c : Char} (hspace : c ≠ ' ')
    (hlines : ∀ entry ∈ entries, c ∉ entry.1) :
    ∀ entry ∈ freshEntries after entries, c ∉ entry.1 := by
  intro entry hentry
  cases isKeptOf_of_mem hentry with
  | empty => exact List.not_mem_nil
  | fenced hmem => exact hlines _ hmem
  | @text before rest line hentries htext =>
    have hline : c ∉ Text.trimEnd line := fun hmem =>
      hlines (line, false) (by simp [hentries]) ((Text.dropTrailing_sublist _ line).subset hmem)
    rcases keptLine_cases line rest.head? with h | ⟨h, -⟩
    · rwa [h]
    · rw [h]
      simpa [hspace] using hline

theorem notMem_of_mem_fencedLines {c : Char} (hlines : ∀ line ∈ Text.lines s, c ∉ line) :
    ∀ entry ∈ fencedLines s, c ∉ entry.1 := fun entry hentry =>
  hlines entry.1 (fencedFrom_map false (Text.lines s) ▸ List.mem_map_of_mem hentry)

/-- What is dropped from a list of lines is dropped from their texts. -/
theorem map_rdropWhile (entries : List (List Char × Bool)) :
    (entries.rdropWhile fun entry => entry.1.isEmpty).map Prod.fst
      = (entries.map Prod.fst).rdropWhile List.isEmpty := by
  induction entries with
  | nil => rfl
  | cons entry entries ih =>
    rw [List.map_cons, rdropWhile_cons, rdropWhile_cons, ← ih, List.isEmpty_map]
    split
    · rfl
    · rfl

theorem minifyMarkdown_eq_fed (s : List Char) :
    minifyMarkdown s = (fed ((keptEntries s).map Prod.fst)).flatten := by
  rw [minifyMarkdown_eq, keptEntries, map_rdropWhile, map_freshEntries]
  rfl

/-- The lines that are kept have neither line feeds nor carriage returns. -/
theorem notMem_keptEntries (hreturns : ∀ line ∈ Text.lines s, '\r' ∉ line) :
    ∀ line ∈ (keptEntries s).map Prod.fst, '\n' ∉ line ∧ '\r' ∉ line := by
  intro line hline
  obtain ⟨entry, hentry, rfl⟩ := List.mem_map.1 hline
  have hfresh := (List.rdropWhile_prefix _ _).subset hentry
  exact ⟨notMem_of_mem_freshEntries (by decide)
      (notMem_of_mem_fencedLines fun line hline => feed_notMem_of_mem_lines hline) entry hfresh,
    notMem_of_mem_freshEntries (by decide) (notMem_of_mem_fencedLines hreturns) entry hfresh⟩

/-- **A minified text is read as the lines that were kept.** -/
theorem fencedLines_minifyMarkdown (hreturns : ∀ line ∈ Text.lines s, '\r' ∉ line) :
    fencedLines (minifyMarkdown s) = keptEntries s := by
  rw [minifyMarkdown_eq_fed, fencedLines, lines_fed (notMem_keptEntries hreturns), keptEntries,
    map_rdropWhile, map_freshEntries, fencedFrom_rdropWhile, fencedLines, fencedFrom_freshLines]

/-! ## Lines from which nothing is taken out

Instead of comparing two passes, this says what lines look like after one, and that a pass leaves
lines of that look alone. -/

/-- Lines after an empty line, or at the start, when `after`, and otherwise after another line: none
of them is changed or taken out. -/
def TidyFrom (after : Bool) : List (List Char × Bool) → Prop
  | [] => True
  | (line, true) :: rest => TidyFrom line.isEmpty rest
  | (line, false) :: rest =>
    if line.isEmpty then after = false ∧ TidyFrom true rest
    else Text.allBlank line = false ∧ keptLine line rest.head? = line ∧ TidyFrom false rest

/-- After a line with text the next line has text if it had. -/
theorem hasText_head?_freshEntries (entries : List (List Char × Bool)) :
    hasText (freshEntries false entries).head? = hasText entries.head? := by
  rcases entries with _ | ⟨⟨line, _ | _⟩, rest⟩
  · rfl
  · cases hblank : Text.allBlank line with
    | true =>
      rw [freshEntries_blank hblank]
      simp [hasText, hblank]
      rfl
    | false =>
      rw [freshEntries_text hblank]
      simp [hasText, allBlank_keptLine]
  · rfl

/-- **What is kept is tidy.** -/
theorem tidyFrom_freshEntries (after : Bool) (entries : List (List Char × Bool)) :
    TidyFrom after (freshEntries after entries) := by
  fun_induction freshEntries after entries with
  | case1 => trivial
  | case2 after line rest ih => exact ih
  | case3 line rest hblank ih => exact ih
  | case4 after line rest hblank hafter ih => exact ⟨by simpa using hafter, ih⟩
  | case5 after line rest hblank ih =>
    have htext : Text.allBlank line = false := by simpa using hblank
    rw [TidyFrom, if_neg (by simpa using keptLine_ne_nil htext rest.head?)]
    exact ⟨(allBlank_keptLine line rest.head?).trans htext,
      keptLine_keptLine (hasText_head?_freshEntries rest).symm line, ih⟩

/-- Lines with text are not dropped. -/
theorem hasText_head?_rdropWhile (entries : List (List Char × Bool)) :
    hasText (entries.rdropWhile fun entry => entry.1.isEmpty).head? = hasText entries.head? := by
  cases entries with
  | nil => rfl
  | cons entry rest =>
    rw [rdropWhile_cons]
    split
    · next hdropped =>
      rw [Bool.and_eq_true, List.isEmpty_iff] at hdropped
      simp [hasText, hdropped.1, Text.allBlank]
    · rfl

/-- Empty lines at the end can be dropped. -/
theorem TidyFrom.rdropWhile (h : TidyFrom after entries) :
    TidyFrom after (entries.rdropWhile fun entry => entry.1.isEmpty) := by
  fun_induction TidyFrom after entries with
  | case1 => trivial
  | case2 after line rest ih =>
    rw [rdropWhile_cons]
    split
    · trivial
    · exact ih h
  | case3 after line rest hempty ih =>
    rw [rdropWhile_cons]
    split
    · trivial
    · rw [TidyFrom, if_pos hempty]
      exact ⟨h.1, ih h.2⟩
  | case4 after line rest hempty ih =>
    obtain ⟨htext, hkept, hrest⟩ := h
    rw [rdropWhile_cons, if_neg (by simp [hempty]), TidyFrom, if_neg hempty]
    exact ⟨htext, (keptLine_congr (hasText_head?_rdropWhile rest) line).trans hkept, ih hrest⟩

/-- **Nothing is taken out of tidy lines.** -/
theorem TidyFrom.freshEntries_eq (h : TidyFrom after entries) :
    freshEntries after entries = entries := by
  fun_induction TidyFrom after entries with
  | case1 => rfl
  | case2 after line rest ih => rw [freshEntries, ih h]
  | case3 after line rest hempty ih =>
    obtain rfl := List.isEmpty_iff.1 hempty
    obtain ⟨rfl, hrest⟩ := h
    rw [freshEntries_blank rfl, if_neg Bool.false_ne_true, ih hrest]
  | case4 after line rest hempty ih =>
    obtain ⟨htext, hkept, hrest⟩ := h
    rw [freshEntries_text htext, hkept, ih hrest]

theorem tidyFrom_keptEntries (s : List Char) : TidyFrom true (keptEntries s) :=
  (tidyFrom_freshEntries true (fencedLines s)).rdropWhile

/-- **A minified text is minified.** -/
theorem minifyMarkdown_minifyMarkdown (hreturns : ∀ line ∈ Text.lines s, '\r' ∉ line) :
    minifyMarkdown (minifyMarkdown s) = minifyMarkdown s := by
  rw [minifyMarkdown_eq_fed (minifyMarkdown s), keptEntries, fencedLines_minifyMarkdown hreturns,
    (tidyFrom_keptEntries s).freshEntries_eq, keptEntries, List.rdropWhile_idempotent, ← keptEntries,
    ← minifyMarkdown_eq_fed]

/-- Lines in normal form.  Of the lines outside fences the first is not blank, no two blank ones
follow each other, and none ends in blanks but two spaces before a line with text. -/
structure IsNormal (entries : List (List Char × Bool)) : Prop where
  first : ∀ line rest, entries = (line, false) :: rest → Text.allBlank line = false
  gaps : ∀ before line next rest, entries = before ++ (line, false) :: (next, false) :: rest →
    Text.allBlank line = false ∨ Text.allBlank next = false
  ends : ∀ before line rest, entries = before ++ (line, false) :: rest →
    Text.trimEnd line = line ∨
      line = Text.trimEnd line ++ [' ', ' '] ∧ ∃ next ∈ rest.head?, Text.allBlank next.1 = false

/-- The lines from any of them on are tidy. -/
theorem TidyFrom.append {before : List (List Char × Bool)} (h : TidyFrom after (before ++ rest)) :
    ∃ after, TidyFrom after rest := by
  induction before generalizing after with
  | nil => exact ⟨after, h⟩
  | cons entry before ih =>
    obtain ⟨line, _ | _⟩ := entry
    · rw [List.cons_append, TidyFrom] at h
      split at h
      · exact ih h.2
      · exact ih h.2.2
    · exact ih h

/-- Lines that are tidy from the start on are a normal text. -/
theorem TidyFrom.isNormal (h : TidyFrom true entries) : IsNormal entries where
  first := by
    rintro line rest rfl
    rw [TidyFrom] at h
    split at h
    · exact absurd h.1.symm Bool.false_ne_true
    · exact h.1
  gaps := by
    rintro before line next rest rfl
    obtain ⟨after, htail⟩ := h.append
    rw [TidyFrom] at htail
    split at htail
    · obtain ⟨-, hnext⟩ := htail
      rw [TidyFrom] at hnext
      split at hnext
      · exact absurd hnext.1.symm Bool.false_ne_true
      · exact .inr hnext.1
    · exact .inl htail.1
  ends := by
    rintro before line rest rfl
    obtain ⟨after, htail⟩ := h.append
    rw [TidyFrom] at htail
    split at htail
    · next hempty => exact .inl (by rw [List.isEmpty_iff.1 hempty]; rfl)
    · obtain ⟨-, hkept, -⟩ := htail
      rcases keptLine_cases line rest.head? with hplain | ⟨hbreak, htext, -⟩
      · exact .inl (hplain.symm.trans hkept)
      · rw [hbreak] at hkept
        exact .inr ⟨hkept.symm, hasText_iff.1 htext⟩

/-! ## What is kept

So far nothing keeps the minifier from dropping everything.  `substance` is what it must keep, and
the two are compared from the end of the text, where empty lines are dropped. -/

/-- What matters of lines: those between fences as they are, and those with text outside fences, but
for blanks at their ends. -/
def substance (entries : List (List Char × Bool)) : List (List Char × Bool) :=
  entries.filterMap fun (line, fenced) =>
    if fenced then some (line, true)
    else if Text.allBlank line then none
    else some (Text.trimEnd line, false)

theorem substance_fenced : substance ((line, true) :: rest) = (line, true) :: substance rest := rfl

theorem substance_blank (h : Text.allBlank line = true) :
    substance ((line, false) :: rest) = substance rest := by
  simp [substance, h]

theorem substance_text (h : Text.allBlank line = false) :
    substance ((line, false) :: rest) = (Text.trimEnd line, false) :: substance rest := by
  simp [substance, h]

/-- **Minifying keeps what matters**, before lines at the end are dropped. -/
theorem substance_freshEntries (after : Bool) (entries : List (List Char × Bool)) :
    substance (freshEntries after entries) = substance entries := by
  fun_induction freshEntries after entries with
  | case1 => rfl
  | case2 after line rest ih => rw [substance_fenced, substance_fenced, ih]
  | case3 line rest hblank ih => rw [ih, substance_blank hblank]
  | case4 after line rest hblank hafter ih => rw [substance_blank rfl, substance_blank hblank, ih]
  | case5 after line rest hblank ih =>
    have htext : Text.allBlank line = false := by simpa using hblank
    rw [substance_text htext, substance_text ((allBlank_keptLine line rest.head?).trans htext),
      trimEnd_keptLine, ih]

/-- It keeps the fences. -/
theorem countP_freshEntries (after : Bool) (entries : List (List Char × Bool)) :
    ((freshEntries after entries).map Prod.fst).countP isFence
      = (entries.map Prod.fst).countP isFence := by
  have hblanks : ∀ {line : List Char}, Text.allBlank line = true → isFence line = false :=
    fun {line} hblank => by
      by_contra hfence
      rw [not_blank_of_isFence (by simpa using hfence)] at hblank
      cases hblank
  fun_induction freshEntries after entries with
  | case1 => rfl
  | case2 after line rest ih => rw [List.map_cons, List.map_cons, List.countP_cons, ih, List.countP_cons]
  | case3 line rest hblank ih =>
    rw [ih, List.map_cons, List.countP_cons_of_neg (by simp [hblanks hblank])]
  | case4 after line rest hblank hafter ih =>
    rw [List.map_cons, List.map_cons, List.countP_cons_of_neg (by decide), ih,
      List.countP_cons_of_neg (by simp [hblanks hblank])]
  | case5 after line rest hblank ih =>
    rw [List.map_cons, List.map_cons, List.countP_cons, ih, isFence_keptLine, List.countP_cons]

/-- Whether a line after these stands between fences. -/
def insideAfter (inside : Bool) (lines : List (List Char)) : Bool :=
  lines.foldl (fun inside line => inside != isFence line) inside

theorem fencedFrom_append (more : List (List Char)) : ∀ (lines : List (List Char)) (inside : Bool),
    fencedFrom inside (lines ++ more)
      = fencedFrom inside lines ++ fencedFrom (insideAfter inside lines) more
  | [], _ => rfl
  | line :: lines, inside => by
    rw [List.cons_append, fencedFrom_cons, fencedFrom_append more lines, fencedFrom_cons]
    rfl

/-- On which side of the fences the end is, is told by the parity of their number. -/
theorem insideAfter_eq : ∀ (lines : List (List Char)) (inside : Bool),
    insideAfter inside lines = (inside != decide (lines.countP isFence % 2 = 1))
  | [], inside => by simp [insideAfter]
  | line :: lines, inside => by
    have ih : insideAfter inside (line :: lines) = _ :=
      insideAfter_eq lines (inside != isFence line)
    rw [ih, List.countP_cons]
    rcases Nat.mod_two_eq_zero_or_one (lines.countP isFence) with hcount | hcount <;>
      cases isFence line <;> cases inside <;> simp [Nat.add_mod, hcount]

theorem fencedFrom_replicate (inside : Bool) : ∀ n : Nat,
    fencedFrom inside (List.replicate n []) = List.replicate n ([], inside)
  | 0 => rfl
  | n + 1 => by
    have hempty : isFence [] = false := by decide
    rw [List.replicate_succ, fencedFrom_line hempty, fencedFrom_replicate inside n]
    rfl

/-- The lines that are dropped at the end are empty. -/
theorem exists_dropped (s : List Char) : ∃ n, freshLines true (fencedLines s)
    = (keptEntries s).map Prod.fst ++ List.replicate n [] := by
  have hdropped : ∀ line ∈ (freshLines true (fencedLines s)).rtakeWhile List.isEmpty, line = [] :=
    fun line hline => List.isEmpty_iff.1 (List.mem_rtakeWhile_imp hline)
  refine ⟨((freshLines true (fencedLines s)).rtakeWhile List.isEmpty).length, ?_⟩
  rw [← List.eq_replicate_of_mem hdropped, keptEntries, map_rdropWhile, map_freshEntries,
    List.rdropWhile_append_rtakeWhile]

/-- Fences are never dropped, so their number stays. -/
theorem countP_keptEntries (s : List Char) :
    ((keptEntries s).map Prod.fst).countP isFence = (Text.lines s).countP isFence := by
  obtain ⟨n, hdropped⟩ := exists_dropped s
  have hcount := countP_freshEntries true (fencedLines s)
  have hempty : (List.replicate n []).countP isFence = 0 :=
    List.countP_eq_zero.2 fun line hline => by
      rw [List.eq_of_mem_replicate hline]
      decide
  rw [map_freshEntries, hdropped, List.countP_append, hempty, fencedLines, fencedFrom_map] at hcount
  exact hcount

/-- **What matters is kept**, but for empty lines at the end of a block that is not closed. -/
theorem exists_substance (s : List Char) : ∃ n, substance (fencedLines s)
      = substance (keptEntries s) ++ List.replicate n ([], true) ∧
    (n ≠ 0 → .unclosedFence ∈ markdownProblems s) := by
  obtain ⟨n, hdropped⟩ := exists_dropped s
  have hkept : keptEntries s = fencedFrom false ((keptEntries s).map Prod.fst) := by
    rw [keptEntries, map_rdropWhile, fencedFrom_rdropWhile, map_freshEntries, fencedLines,
      fencedFrom_freshLines]
  have hfresh : freshEntries true (fencedLines s) = keptEntries s
      ++ List.replicate n ([], insideAfter false ((keptEntries s).map Prod.fst)) := by
    rw [fencedLines, ← fencedFrom_freshLines, ← fencedLines, hdropped, fencedFrom_append, ← hkept,
      fencedFrom_replicate]
  have hsubstance : substance (fencedLines s) = substance (keptEntries s)
      ++ substance (List.replicate n ([], insideAfter false ((keptEntries s).map Prod.fst))) := by
    rw [← substance_freshEntries true, hfresh, substance, List.filterMap_append]
    rfl
  rw [hsubstance, insideAfter_eq, countP_keptEntries, mem_markdownProblems_iff, HasProblem,
    Bool.false_bne]
  by_cases hodd : (Text.lines s).countP isFence % 2 = 1
  · refine ⟨n, ?_, fun _ => hodd⟩
    simp [hodd, substance]
  · refine ⟨0, ?_, fun h => absurd rfl h⟩
    simp [hodd, substance, Text.allBlank]

/-- **A minified text is empty or ends with exactly one line feed.** -/
theorem minifyMarkdown_ends (hreturns : ∀ line ∈ Text.lines s, '\r' ∉ line) :
    minifyMarkdown s = [] ∨ ∃ before c, c ≠ '\n' ∧ minifyMarkdown s = before ++ [c, '\n'] := by
  rw [minifyMarkdown_eq_fed]
  have hlines := notMem_keptEntries hreturns
  rcases List.eq_nil_or_concat' ((keptEntries s).map Prod.fst) with hnil | ⟨lines, last, hlast⟩
  · exact .inl (by rw [hnil]; rfl)
  · rw [hlast] at hlines
    have hne : last ≠ [] := by
      have hdropped : (lines ++ [last]).rdropWhile List.isEmpty = lines ++ [last] := by
        rw [← hlast, keptEntries, map_rdropWhile, List.rdropWhile_idempotent]
      simpa using List.rdropWhile_eq_self_iff.1 hdropped (by simp)
    obtain ⟨text, c, rfl⟩ := (List.eq_nil_or_concat' last).resolve_left hne
    have hfeed : '\n' ∉ text ++ [c] := (hlines _ (by simp)).1
    refine .inr ⟨(fed lines).flatten ++ text, c, fun hc => hfeed (by simp [hc]), ?_⟩
    rw [hlast]
    simp [fed]

/-! ## Marks of lists

The check for marks wants a space after a mark, and trimming can put one there: two spaces that
stand for a line break are kept when all blanks before them, a tab among them, go. -/

theorem filter_trimEnd (line : List Char) :
    (Text.trimEnd line).filter (fun c => !Text.isBlank c) = line.filter fun c => !Text.isBlank c := by
  have hblanks : (line.rtakeWhile Text.isBlank).filter (fun c => !Text.isBlank c) = [] :=
    List.filter_eq_nil_iff.2 fun c hc => by simp [List.mem_rtakeWhile_imp hc]
  conv_rhs => rw [← List.rdropWhile_append_rtakeWhile (p := Text.isBlank) (l := line),
    List.filter_append, hblanks, List.append_nil]
  rw [trimEnd_eq]

/-- Thematic breaks stay such, and other lines do not become one. -/
theorem isBreakLine_keptLine (line : List Char) (next : Option (List Char × Bool)) :
    isBreakLine (keptLine line next) = isBreakLine line := by
  have hmarks : (keptLine line next).filter (fun c => !Text.isBlank c)
      = line.filter fun c => !Text.isBlank c := by
    rcases keptLine_cases line next with h | ⟨h, -⟩
    · rw [h, filter_trimEnd]
    · have hspaces : [' ', ' '].filter (fun c => !Text.isBlank c) = [] := by decide
      rw [h, List.filter_append, filter_trimEnd, hspaces, List.append_nil]
  rw [isBreakLine, isBreakLine, hmarks]

/-- Whether a character marks the items of a list. -/
def isListMark (c : Char) : Bool := c == '-' || c == '*' || c == '+'

/-- Whether a line is an item is told by its first mark and the character after it. -/
theorem itemMark?_mark {lead body : List Char} {mark : Char} (hlead : Text.allBlank lead = true)
    (hmark : Text.isBlank mark = false) : itemMark? (lead ++ mark :: body)
      = if body.head? = some ' ' ∧ isListMark mark = true then some mark else none := by
  rw [itemMark?, trimStart_mark hlead hmark]
  split
  · next heq =>
    cases heq
    simp [isListMark]
  · next hother =>
    rw [if_neg]
    rintro ⟨hspace, -⟩
    obtain ⟨rest, rfl⟩ := List.head?_eq_some_iff.1 hspace
    exact hother _ _ rfl

/-- A line that is a list mark with blanks after it, the first of which is no space.  If it ends with
two spaces before a line with text, only these spaces are kept of the blanks. -/
def isBareBreak (line : List Char) (next : Option (List Char × Bool)) : Bool :=
  match Text.trimStart line with
  | mark :: c :: rest =>
    isListMark mark && c != ' ' && Text.allBlank (c :: rest) && Text.endsWith [' ', ' '] line
      && hasText next
  | _ => false

/-- Whether such a line stands outside fences. -/
def hasBareBreak : List (List Char × Bool) → Bool
  | [] => false
  | (line, fenced) :: rest => !fenced && isBareBreak line rest.head? || hasBareBreak rest

theorem isBareBreak_of_append : ∀ {before : List (List Char × Bool)},
    hasBareBreak (before ++ (line, false) :: rest) = false → isBareBreak line rest.head? = false
  | [], h => by
    rw [List.nil_append, hasBareBreak, Bool.or_eq_false_iff] at h
    simpa using h.1
  | (_, _) :: _, h => by
    rw [List.cons_append, hasBareBreak, Bool.or_eq_false_iff] at h
    exact isBareBreak_of_append h.2

/-- **No other line becomes an item.** -/
theorem itemMark?_of_keptLine {mark : Char} (htext : Text.allBlank line = false)
    (hbare : isBareBreak line next = false) (h : itemMark? (keptLine line next) = some mark) :
    itemMark? line = some mark := by
  obtain ⟨lead, first, body, rfl, hlead, hfirst⟩ := exists_mark htext
  obtain ⟨tail, hkept, htail⟩ := keptLine_mark hfirst lead body next
  rw [hkept, itemMark?_mark hlead hfirst, Option.ite_none_right_eq_some] at h
  obtain ⟨⟨hspace, hmark⟩, heq⟩ := h
  rw [itemMark?_mark hlead hfirst, ← heq]
  refine if_pos ⟨?_, hmark⟩
  cases htrim : Text.trimEnd body with
  | cons c kept =>
    obtain ⟨blanks, hbody⟩ : Text.trimEnd body <+: body :=
      trimEnd_eq body ▸ List.rdropWhile_prefix _ _
    rw [htrim] at hspace hbody
    rwa [← hbody]
  | nil =>
    rw [htrim, List.nil_append] at hspace
    rcases htail with rfl | ⟨rfl, hnext, hends⟩
    · cases hspace
    · cases body with
      | nil =>
        -- the mark itself would be one of the two spaces
        obtain ⟨start, hstart⟩ := Text.endsWith_iff.1 hends
        have hlast := congrArg List.getLast? hstart
        rw [List.getLast?_append, List.getLast?_concat] at hlast
        obtain rfl : ' ' = first := Option.some.inj hlast
        cases hfirst
      | cons c rest =>
        rw [isBareBreak, trimStart_mark hlead hfirst] at hbare
        rw [List.head?_cons]
        by_contra hc
        simp [hmark, allBlank_iff.2 htrim, hends, hnext] at hbare hc
        exact hc hbare

/-! ## Problems

All but the marks of lists follows from the sections above.  A mark can only be new at a bare break,
and without any the check finds the marks that it found before. -/

/-- The marks of items outside fences. -/
theorem mem_itemMarks_iff {mark : Char} : mark ∈ itemMarks entries ↔ mark ∈ ['*', '+', '-'] ∧
    ∃ line, (line, false) ∈ entries ∧ isBreakLine line = false ∧ itemMark? line = some mark := by
  rw [itemMarks, List.mem_filter, List.contains_iff_mem, List.mem_filterMap]
  refine and_congr_right fun _ => ⟨?_, ?_⟩
  · rintro ⟨⟨line, fenced⟩, hmem, hmark⟩
    rw [Option.ite_none_left_eq_some, Bool.not_eq_true, Bool.or_eq_false_iff] at hmark
    obtain ⟨⟨rfl, hbreak⟩, hmark⟩ := hmark
    exact ⟨line, hmem, hbreak, hmark⟩
  · rintro ⟨line, hmem, hbreak, hmark⟩
    exact ⟨(line, false), hmem, by simp [hbreak, hmark]⟩

/-- **Without bare breaks no mark is new.** -/
theorem itemMarks_keptEntries (hbare : hasBareBreak (fencedLines s) = false) :
    ∀ mark ∈ itemMarks (keptEntries s), mark ∈ itemMarks (fencedLines s) := by
  intro mark hmark
  obtain ⟨hkind, line, hmem, hbreak, hitem⟩ := mem_itemMarks_iff.1 hmark
  refine mem_itemMarks_iff.2 ⟨hkind, ?_⟩
  cases isKeptOf_of_mem ((List.rdropWhile_prefix _ _).subset hmem) with
  | empty => cases hitem
  | @text before rest line hentries htext =>
    rw [isBreakLine_keptLine] at hbreak
    rw [hentries] at hbare ⊢
    exact ⟨line, by simp, hbreak, itemMark?_of_keptLine htext (isBareBreak_of_append hbare) hitem⟩

theorem nodup_itemMarks (entries : List (List Char × Bool)) : (itemMarks entries).Nodup :=
  List.Nodup.filter _ (by decide)

/-- **Minified Markdown is in normal form.**  For every text whose lines have no carriage returns:

1. minifying it twice is minifying it once;
2. what comes out is empty or ends with exactly one line feed;
3. its lines are in normal form;
4. it has what matters of the text, in order and with the same fences, but for empty lines at the end
   of a block that is not closed;
5. it ends with a line feed if it has lines, and a fence is left open if the text leaves one open;
6. its items have different marks only if those of the text have, unless there is a bare break. -/
theorem minifyMarkdown_normal (s : List Char) (hreturns : ∀ line ∈ Text.lines s, '\r' ∉ line) :
    minifyMarkdown (minifyMarkdown s) = minifyMarkdown s ∧
    (minifyMarkdown s = [] ∨ ∃ before c, c ≠ '\n' ∧ minifyMarkdown s = before ++ [c, '\n']) ∧
    IsNormal (fencedLines (minifyMarkdown s)) ∧
    (∃ n, substance (fencedLines s)
        = substance (fencedLines (minifyMarkdown s)) ++ List.replicate n ([], true) ∧
      (n ≠ 0 → .unclosedFence ∈ markdownProblems s)) ∧
    .missingFinalNewline ∉ markdownProblems (minifyMarkdown s) ∧
    (.unclosedFence ∈ markdownProblems (minifyMarkdown s) ↔
      .unclosedFence ∈ markdownProblems s) ∧
    (hasBareBreak (fencedLines s) = false →
      ∀ marks, .inconsistentMarks marks ∈ markdownProblems (minifyMarkdown s) →
        ∃ others, .inconsistentMarks others ∈ markdownProblems s ∧ marks ⊆ others) := by
  have hlines := fencedLines_minifyMarkdown hreturns
  have hends := minifyMarkdown_ends hreturns
  rw [hlines]
  refine ⟨minifyMarkdown_minifyMarkdown hreturns, hends, (tidyFrom_keptEntries s).isNormal,
    exists_substance s, fun hmissing => ?_, ?_, fun hbare marks hmarks => ?_⟩
  · obtain ⟨hne, hlast⟩ := mem_markdownProblems_iff.1 hmissing
    obtain ⟨before, c, -, heq⟩ := hends.resolve_left hne
    exact hlast (by simp [heq])
  · rw [mem_markdownProblems_iff, mem_markdownProblems_iff, HasProblem, HasProblem,
      minifyMarkdown_eq_fed, lines_fed (notMem_keptEntries hreturns), countP_keptEntries]
  · obtain ⟨rfl, hmany⟩ := mem_markdownProblems_iff.1 hmarks
    rw [hlines] at hmany ⊢
    have hsubset : itemMarks (keptEntries s) ⊆ itemMarks (fencedLines s) :=
      fun mark hmark => itemMarks_keptEntries hbare mark hmark
    have hlength := ((nodup_itemMarks (keptEntries s)).subperm hsubset).length_le
    exact ⟨_, mem_markdownProblems_iff.2 ⟨rfl, Nat.lt_of_lt_of_le hmany hlength⟩, hsubset⟩

/-- A note with blanks at the ends of its lines and a block that is not closed. -/
def openNote : List Char :=
  "\n# A \t\n\n\n- b    \nc   \n\n\x60\x60\x60\nd  \n\n\n".toList

theorem openNote_minifyMarkdown_normal :
    minifyMarkdown openNote = "# A\n\n- b  \nc\n\n\x60\x60\x60\nd  \n".toList ∧
    minifyMarkdown (minifyMarkdown openNote) = minifyMarkdown openNote ∧
    IsNormal (fencedLines (minifyMarkdown openNote)) ∧
    ∀ marks, .inconsistentMarks marks ∉ markdownProblems (minifyMarkdown openNote) := by
  obtain ⟨htwice, -, hnormal, -, -, -, hmarks⟩ :=
    minifyMarkdown_normal openNote (by decide +kernel)
  refine ⟨by decide +kernel, htwice, hnormal, fun marks hmem => ?_⟩
  obtain ⟨others, hothers, -⟩ := hmarks (by decide +kernel) marks hmem
  have hproblems : markdownProblems openNote = [.unclosedFence] := by decide +kernel
  rw [hproblems] at hothers
  cases hothers with
  | tail _ hnil => cases hnil

/-- A list mark with a tab and two spaces after it, before a line with text. -/
def tabbedNote : List Char := "* a\n-\t  \nb\n".toList

/-- **Minifying may make an item.**  The check does not take a mark before a tab for an item.  Of the
blanks after the mark two spaces are kept, as if they were a line break, and then it does. -/
theorem exists_inconsistentMarks_minifyMarkdown : ∃ s, (∀ line ∈ Text.lines s, '\r' ∉ line) ∧
    markdownProblems s = [] ∧ minifyMarkdown s = "* a\n-  \nb\n".toList ∧
    markdownProblems (minifyMarkdown s) = [.inconsistentMarks ['*', '-']] :=
  ⟨tabbedNote, by decide +kernel, by decide +kernel, by decide +kernel, by decide +kernel⟩

end Artifact
end Frontispiece
