import Frontispiece.Markdown.Outline
import Mathlib.Data.List.TakeWhile

/-!
# Lines and gaps

The reader of Markdown takes a text line by line.  This file follows single lines through the
functions that look at their starts: indentation, the marks of open containers, and new marks.

## What is here

* `IsEnded` — a text that ends a line, and `linesOf_flatten`: lines put together are its lines.
* `IsLine` — a text that is one line, with its line feed.  Whatever is read off its start, a line is
  left: `Line.take_isLine`, `Outline.goOn_isLine`, `Outline.openMarks_isLine`.
* `IsGap` — a line of spaces and tabs.  All gaps are read alike: they go on with every container
  that is no quote (`Outline.inside?_of_isGap`), open none (`Outline.openMarks_of_isGap`)
  and end paragraphs and tables.

A gap is defined by its characters and not by what the reader makes of it, since whether a line
counts as blank depends on the containers that are open.  The lemmas say what each part of the
reader does with a gap: it has no mark, goes on with every container but quotes, and its indentation
is short only because it ends.
-/

set_option autoImplicit false

namespace Frontispiece
namespace Markdown

/-- A text that is one line, with its line feed. -/
inductive IsLine : List Char → Prop
  | stop : IsLine ['\n']
  | cons {c : Char} {s : List Char} (hfeed : c ≠ '\n') (hreturn : c ≠ '\r') (hs : IsLine s) :
    IsLine (c :: s)

/-- A line of spaces and tabs. -/
inductive IsGap : List Char → Prop
  | stop : IsGap ['\n']
  | cons {c : Char} {s : List Char} (hc : c = ' ' ∨ c = '\t') (hs : IsGap s) : IsGap (c :: s)

/-- A text whose last character is a line feed. -/
def IsEnded (s : List Char) : Prop := s.getLast? = some '\n'

variable {s x : List Char} {c : Char} {l : Line} {o : Outline}

namespace IsLine

theorem ne_nil (h : IsLine s) : s ≠ [] := by
  cases h <;> nofun

/-- What is left of a line after a character other than its line feed. -/
theorem tail (h : IsLine (c :: s)) (hc : c ≠ '\n') : IsLine s := by
  cases h with
  | stop => exact absurd rfl hc
  | cons _ _ hs => exact hs

/-- What is left of a line is a line, if its line feed is kept. -/
theorem dropWhile {p : Char → Bool} (hp : p '\n' = false) (h : IsLine s) :
    IsLine (s.dropWhile p) := by
  induction h with
  | stop =>
    rw [List.dropWhile_cons_of_neg (by simp [hp])]
    exact .stop
  | @cons c s hfeed hreturn hs ih =>
    cases hpc : p c with
    | true => rwa [List.dropWhile_cons_of_pos hpc]
    | false =>
      rw [List.dropWhile_cons_of_neg (by simp [hpc])]
      exact .cons hfeed hreturn hs

/-- What is left of a line after as many characters as are none of them its line feed. -/
theorem drop (h : IsLine s) {n : Nat} (hn : ∀ c ∈ s.take n, c ≠ '\n') : IsLine (s.drop n) := by
  induction n generalizing s with
  | zero => exact h
  | succ n ih =>
    cases h with
    | stop => exact absurd rfl (hn _ List.mem_cons_self)
    | cons _ _ hs => exact ih hs fun c hc => hn c (List.mem_cons_of_mem _ hc)

theorem append_text {text : List Char} (htext : ∀ c ∈ text, c ≠ '\n' ∧ c ≠ '\r') (h : IsLine s) :
    IsLine (text ++ s) := by
  induction text with
  | nil => exact h
  | cons c text ih =>
    have hc := htext c List.mem_cons_self
    exact .cons hc.1 hc.2 (ih fun d hd => htext d (List.mem_cons_of_mem _ hd))

end IsLine

namespace IsGap

theorem isLine (h : IsGap s) : IsLine s := by
  induction h with
  | stop => exact .stop
  | cons hc _ ih =>
    obtain rfl | rfl := hc
    · exact .cons (by decide) (by decide) ih
    · exact .cons (by decide) (by decide) ih

/-- Nothing but the line feed of a gap is left when spaces and tabs are dropped. -/
theorem dropWhile {p : Char → Bool} (hfeed : p '\n' = false) (hspace : p ' ' = true)
    (htab : p '\t' = true) (h : IsGap s) : s.dropWhile p = ['\n'] := by
  induction h with
  | stop => exact List.dropWhile_cons_of_neg (by simp [hfeed])
  | cons hc _ ih =>
    rwa [List.dropWhile_cons_of_pos]
    obtain rfl | rfl := hc
    · exact hspace
    · exact htab

theorem blankRest (h : IsGap s) : blankRest s = true := by
  rw [Markdown.blankRest, h.dropWhile (by decide) (by decide) (by decide)]
  rfl

/-- A gap starts with a space, a tab or a line feed. -/
theorem head?_mem (h : IsGap s) :
    s.head? = some ' ' ∨ s.head? = some '\t' ∨ s.head? = some '\n' := by
  cases h with
  | stop => exact .inr (.inr rfl)
  | cons hc _ =>
    obtain rfl | rfl := hc
    · exact .inl rfl
    · exact .inr (.inl rfl)

theorem head?_ne (h : IsGap s) (hspace : c ≠ ' ') (htab : c ≠ '\t') (hfeed : c ≠ '\n') :
    (s.head? == some c) = false := by
  obtain h | h | h := h.head?_mem
  · simp [h, hspace.symm]
  · simp [h, htab.symm]
  · simp [h, hfeed.symm]

theorem contains_pipe (h : IsGap s) : s.contains '|' = false := by
  induction h with
  | stop => rfl
  | cons hc _ ih =>
    obtain rfl | rfl := hc
    · exact ih
    · exact ih

end IsGap

namespace IsEnded

theorem ne_nil (h : IsEnded s) : s ≠ [] := by
  rintro rfl
  cases h

theorem mem (h : IsEnded s) : '\n' ∈ s := List.mem_of_getLast? h

theorem of_append {u : List Char} (h : IsEnded (u ++ s)) (hs : s ≠ []) : IsEnded s := by
  rw [IsEnded, List.getLast?_append, List.getLast?_eq_some_getLast hs, Option.some_or] at h
  rwa [IsEnded, List.getLast?_eq_some_getLast hs]

theorem tail (h : IsEnded (c :: s)) (hc : c ≠ '\n') : IsEnded s := by
  refine IsEnded.of_append (u := [c]) h ?_
  rintro rfl
  exact hc (Option.some.inj h)

/-- What stands after a character other than a line feed. -/
theorem after {u r : List Char} (h : IsEnded (u ++ c :: r)) (hc : c ≠ '\n') : IsEnded r :=
  (h.of_append nofun).tail hc

theorem dropWhile {p : Char → Bool} (hp : p '\n' = false) (h : IsEnded s) :
    IsEnded (s.dropWhile p) := by
  refine IsEnded.of_append (u := s.takeWhile p) (by rwa [List.takeWhile_append_dropWhile]) ?_
  intro hnil
  have hall := List.dropWhile_eq_nil_iff.mp hnil _ h.mem
  rw [hp] at hall
  cases hall

/-- In a text that is ended, a run that has no line feed is ended before the text is. -/
theorem dropWhile_append {p : Char → Bool} (hp : p '\n' = false) (h : IsEnded x) (y : List Char) :
    (x ++ y).dropWhile p = x.dropWhile p ++ y := by
  rw [List.dropWhile_append, if_neg]
  rw [List.isEmpty_iff]
  exact (h.dropWhile hp).ne_nil

end IsEnded

namespace IsLine

theorem isEnded (h : IsLine s) : IsEnded s := by
  induction h with
  | stop => rfl
  | cons _ _ hs ih =>
    rw [IsEnded, ← List.singleton_append, List.getLast?_append, show _ = some '\n' from ih]
    rfl

theorem count_feed (h : IsLine s) : s.count '\n' = 1 := by
  induction h with
  | stop => rfl
  | cons hfeed _ _ ih => rw [List.count_cons_of_ne hfeed, ih]

end IsLine

/-- A text that is ended goes on to the end of its last line. -/
theorem IsEnded.append_flatten {lines : List (List Char)} (h : IsEnded s)
    (hlines : ∀ line ∈ lines, IsLine line) : IsEnded (s ++ lines.flatten) := by
  induction lines generalizing s with
  | nil => rwa [List.flatten_nil, List.append_nil]
  | cons line lines ih =>
    rw [List.flatten_cons, ← List.append_assoc]
    refine ih ?_ fun t ht => hlines t (List.mem_cons_of_mem _ ht)
    rw [IsEnded, List.getLast?_append, show line.getLast? = some '\n' from
      (hlines line List.mem_cons_self).isEnded]
    rfl

theorem count_feed_flatten {lines : List (List Char)} (h : ∀ line ∈ lines, IsLine line) :
    lines.flatten.count '\n' = lines.length := by
  induction lines with
  | nil => rfl
  | cons line lines ih =>
    rw [List.flatten_cons, List.count_append, (h line List.mem_cons_self).count_feed,
      ih fun s hs => h s (List.mem_cons_of_mem _ hs), List.length_cons, Nat.add_comm]

/-! ## Lines of a text

A text is cut into lines once, by a reader that keeps what it has read of the line.  Where a text is
made of lines already, that reader finds them again. -/

/-- A text that starts with a line is cut after it.  What has been read before belongs to that
line. -/
theorem linesFrom_of_isLine {line : List Char} (h : IsLine line) (read s : List Char) :
    linesFrom read (line ++ s) = (read.reverse ++ line) :: linesFrom [] s := by
  induction h generalizing read with
  | stop =>
    rw [List.cons_append, List.nil_append, linesFrom]
    · rw [if_pos (by decide), List.reverse_cons]
    · nofun
  | @cons c line hfeed hreturn _ ih =>
    rw [List.cons_append, linesFrom]
    · rw [if_neg (by simp [hfeed, hreturn]), ih, List.reverse_cons, List.append_assoc,
        List.singleton_append]
    · intro rest hc
      exact absurd hc hreturn

/-- The lines of a text that is made of lines. -/
theorem linesOf_flatten {lines : List (List Char)} (h : ∀ line ∈ lines, IsLine line) :
    linesOf lines.flatten = lines := by
  induction lines with
  | nil => rfl
  | cons line lines ih =>
    rw [List.flatten_cons, linesOf, linesFrom_of_isLine (h line List.mem_cons_self)]
    exact congrArg (line :: ·) (ih fun s hs => h s (List.mem_cons_of_mem _ hs))

theorem linesFrom_cons {read s : List Char} (h : ∀ rest, c = '\r' → s ≠ '\n' :: rest) :
    linesFrom read (c :: s)
      = if c == '\n' || c == '\r' then ('\n' :: read).reverse :: linesFrom [] s
      else linesFrom (c :: read) s := by
  rw [linesFrom]
  exact h

/-- The lines of a text that is ended, and of what comes after it. -/
theorem linesFrom_append {read s : List Char} (hs : IsEnded s) (y : List Char) :
    linesFrom read (s ++ y) = linesFrom read s ++ linesFrom [] y := by
  fun_induction linesFrom read s with
  | case1 => cases hs
  | case2 => cases hs
  | case3 read rest ih =>
    rw [List.cons_append, List.cons_append, linesFrom, List.cons_append]
    by_cases hrest : rest = []
    · subst hrest
      rfl
    · rw [ih (IsEnded.of_append (u := ['\r', '\n']) hs hrest)]
  | case4 read c rest hreturn hend ih =>
    rw [List.cons_append, linesFrom_cons, if_pos hend, List.cons_append]
    · by_cases hrest : rest = []
      · subst hrest
        rfl
      · rw [ih (IsEnded.of_append (u := [c]) hs hrest)]
    · rintro after rfl hafter
      cases rest with
      | nil => cases hs
      | cons d rest =>
        obtain ⟨rfl, -⟩ := List.cons.inj hafter
        exact hreturn rest rfl rfl
  | case5 read c rest hreturn hend ih =>
    rw [List.cons_append, linesFrom_cons, if_neg hend]
    · refine ih (hs.tail ?_)
      rintro rfl
      exact hend (by decide)
    · rintro after rfl
      exact absurd (by decide) hend

/-! ## Indentation

Taking indentation from a line leaves a line, as the line feed is no indentation.  A gap may end
before all places are taken; then it is the end of the gap that is left, and nothing else. -/

namespace Line

/-- Blanks are taken from the front of a line, and never its line feed. -/
theorem takeFrom_isLine (h : IsLine s) (n column : Nat) : IsLine (takeFrom n s column).1.rest := by
  induction h generalizing n column with
  | stop =>
    rw [takeFrom]
    split
    · exact .stop
    · exact .stop
  | cons hfeed hreturn hs ih =>
    rw [takeFrom]
    split
    · exact .cons hfeed hreturn hs
    · split
      · exact ih _ _
      · split
        · dsimp only
          split
          · exact hs
          · exact ih _ _
        · exact .cons hfeed hreturn hs

theorem take_isLine (h : IsLine l.rest) (n : Nat) : IsLine (l.take n).1.rest := by
  rw [take]
  split
  · exact h
  · exact takeFrom_isLine h _ _

/-- Indentation that a gap lacks is missing because the gap ends. -/
theorem takeFrom_isGap (h : IsGap s) (n column : Nat) :
    IsGap (takeFrom n s column).1.rest ∧
      ((takeFrom n s column).2 = 0 ∨ (takeFrom n s column).1.rest = ['\n']) := by
  induction h generalizing n column with
  | stop =>
    rw [takeFrom]
    split
    · exact ⟨.stop, .inl rfl⟩
    · exact ⟨.stop, .inr rfl⟩
  | cons hc hs ih =>
    rw [takeFrom]
    split
    · exact ⟨.cons hc hs, .inl rfl⟩
    · obtain rfl | rfl := hc
      · exact ih _ _
      · rw [if_neg (by decide), if_pos (by decide)]
        dsimp only
        split
        · exact ⟨hs, .inl rfl⟩
        · exact ih _ _

theorem take_isGap (h : IsGap l.rest) (n : Nat) :
    IsGap (l.take n).1.rest ∧ ((l.take n).2 = 0 ∨ (l.take n).1.rest = ['\n']) := by
  rw [take]
  split
  · exact ⟨h, .inl rfl⟩
  · exact takeFrom_isGap h _ _

theorem unindented_of_isGap (h : IsGap l.rest) : l.unindented = ['\n'] :=
  h.dropWhile (by decide) (by decide) (by decide)

theorem text_isLine (h : IsLine l.rest) : IsLine l.text := by
  refine h.append_text fun c hc => ?_
  obtain rfl := List.eq_of_mem_replicate hc
  decide

theorem text_isGap (h : IsGap l.rest) : IsGap l.text := by
  rw [text]
  induction l.owed with
  | zero => exact h
  | succ n ih => exact .cons (.inl rfl) ih

/-! ## Marks

Each mark is looked for in a line and, where there is one, leaves a line.  In a gap there is none,
since marks are neither blanks nor line feeds. -/

/-- What follows the mark of a quote is a line again, as the mark has no line feed in it. -/
theorem quoteMark?_isLine {after : Line} (h : IsLine l.rest) (hquote : l.quoteMark? = some after) :
    IsLine after.rest := by
  rw [quoteMark?] at hquote
  have hstart := take_isLine h 3
  split at hquote
  · next hmark =>
    cases hquote
    refine take_isLine (hstart.drop fun c hc => ?_) 1
    rw [Bool.and_eq_true, beq_iff_eq, beq_iff_eq] at hmark
    obtain ⟨rest, hrest⟩ := List.head?_eq_some_iff.mp hmark.2
    rw [hrest, List.take_succ_cons, List.take_zero, List.mem_singleton] at hc
    rw [hc]
    decide
  · cases hquote

theorem quoteMark?_of_isGap (h : IsGap l.rest) : l.quoteMark? = none := by
  rw [quoteMark?, (take_isGap h 3).1.head?_ne (by decide) (by decide) (by decide), Bool.and_false,
    if_neg (by decide)]

theorem itemMark?_of_isGap (h : IsGap s) : itemMark? s = none := by
  cases h with
  | stop => rfl
  | cons hc _ =>
    obtain rfl | rfl := hc
    · rfl
    · rfl

theorem listMark?_of_isGap (h : IsGap l.rest) : l.listMark? = none := by
  have hstart := (take_isGap h 4).1
  rw [listMark?]
  generalize l.take 4 = taken at hstart ⊢
  obtain ⟨start, missing⟩ := taken
  dsimp only
  rw [itemMark?_of_isGap hstart, Option.map_none, ite_self]

/-- No line feed stands among the digits of a number and the character after them. -/
theorem numbered_ne_feed {mark : Char}
    (hhead : (s.drop ((s.take 9).takeWhile Char.isDigit).length).head? = some mark)
    (hmark : mark ≠ '\n') :
    ∀ c ∈ s.take (((s.take 9).takeWhile Char.isDigit).length + 1), c ≠ '\n' := by
  intro c hc
  have hlead : (s.take 9).takeWhile Char.isDigit <+: s :=
    have hdigits := List.takeWhile_prefix Char.isDigit
    hdigits.trans <| List.take_prefix 9 s
  have hdigits := (List.prefix_iff_eq_take.mp hlead).symm
  rw [List.head?_drop] at hhead
  rw [List.take_add_one, hdigits, hhead, Option.toList_some, List.mem_append,
    List.mem_singleton] at hc
  obtain hc | rfl := hc
  · rintro rfl
    have hdigit := List.all_eq_true.mp List.all_takeWhile _ hc
    revert hdigit
    decide
  · exact hmark

/-- The mark of an item stands before the line feed. -/
theorem itemMark?_width {m : ListMark} (h : itemMark? s = some m) :
    ∀ c ∈ s.take m.width, c ≠ '\n' := by
  cases s with
  | nil => cases h
  | cons c s =>
    rw [itemMark?] at h
    dsimp only at h
    split at h
    · next hmark =>
      split at h
      · cases h
        intro d hd
        rw [List.take_succ_cons, List.take_zero, List.mem_singleton] at hd
        rintro rfl
        rw [← hd] at hmark
        revert hmark
        decide
      · cases h
    · split at h
      · next number mark hnumber hhead =>
        split at h
        · next hmark =>
          split at h
          · cases h
            exact numbered_ne_feed hhead (by
              rintro rfl
              revert hmark
              decide)
          · cases h
        · cases h
      · cases h

/-- What follows the mark of an item is a line again. -/
theorem listMark?_isLine {m : ListMark} {indent : Nat} {after : Line} (h : IsLine l.rest)
    (hmark : l.listMark? = some (m, indent, after)) : IsLine after.rest := by
  have hstart := take_isLine h 4
  rw [listMark?] at hmark
  generalize l.take 4 = taken at hstart hmark
  obtain ⟨start, missing⟩ := taken
  dsimp only at hmark
  split at hmark
  · cases hmark
  · obtain ⟨m', hm', hmark⟩ := Option.map_eq_some_iff.mp hmark
    have hafter : IsLine ((start.drop m'.width).take 1).1.rest :=
      take_isLine (hstart.drop (itemMark?_width hm')) 1
    split at hmark
    · cases hmark
      exact hafter
    · split at hmark
      · cases hmark
        exact hafter
      · cases hmark
        exact take_isLine hafter 4

/-- What follows a box to check is a line again. -/
theorem checkbox?_isLine {checked : Bool} {after : Line} (h : IsLine l.rest)
    (hbox : l.checkbox? = some (checked, after)) : IsLine after.rest := by
  have hstart := take_isLine h 3
  rw [checkbox?] at hbox
  split at hbox
  · next c rest heq =>
    have hafter : c ≠ '\n' → IsLine ((l.take 3).1.drop 3).rest := fun hc =>
      hstart.drop (by simp [heq, hc])
    split at hbox
    · split at hbox
      · next hblank =>
        cases hbox
        exact hafter (by
          rintro rfl
          revert hblank
          decide)
      · split at hbox
        · next hx =>
          cases hbox
          exact hafter (by
            rintro rfl
            revert hx
            decide)
        · cases hbox
    · cases hbox
  · cases hbox

end Line

/-! ## Containers

A line goes through the open containers from the outermost inwards.  Gaps go on with lists and items
whatever their indentation, and with no quote, because a quote wants its mark. -/

/-- Whether a container is no quote. -/
def Container.isPlain : Container → Bool
  | .quote _ => false
  | _ => true

namespace Container

/-- A container takes its own mark or its own blanks from the front of a line, and leaves a line. -/
theorem enter?_isLine {container : Container} {after : Line} (h : IsLine l.rest)
    (henter : container.enter? l = some after) : IsLine after.rest := by
  cases container with
  | quote blocks => exact Line.quoteMark?_isLine h henter
  | list mark tight items =>
    cases henter
    exact h
  | item indent blocks =>
    have htaken := Line.take_isLine h indent
    rw [enter?] at henter
    generalize l.take indent = taken at htaken henter
    obtain ⟨start, missing⟩ := taken
    dsimp only at henter
    split at henter
    · cases henter
      exact htaken
    · cases henter

/-- A gap goes on with every container that is no quote. -/
theorem enter?_of_isGap (container : Container) (h : IsGap l.rest) :
    if container.isPlain then ∃ after, container.enter? l = some after ∧ IsGap after.rest
    else container.enter? l = none := by
  cases container with
  | quote blocks => exact Line.quoteMark?_of_isGap h
  | list mark tight items => exact ⟨l, rfl, h⟩
  | item indent blocks =>
    obtain ⟨hrest, hmissing⟩ := Line.take_isGap h indent
    change ∃ after, enter? l (.item indent blocks) = some after ∧ IsGap after.rest
    rw [enter?]
    generalize l.take indent = taken at hrest hmissing ⊢
    obtain ⟨start, missing⟩ := taken
    refine ⟨start, if_pos ?_, hrest⟩
    rw [Bool.or_eq_true, beq_iff_eq]
    exact hmissing.imp_right fun hstop => by rw [show start.rest = ['\n'] from hstop]; rfl

end Container

/-- So do several containers, one after the other. -/
theorem enterAll_isLine (h : IsLine l.rest) (containers : List Container) :
    IsLine (enterAll containers l).2.rest := by
  induction containers generalizing l with
  | nil => exact h
  | cons container inner ih =>
    rw [enterAll]
    cases henter : container.enter? l with
    | none => exact h
    | some after => exact ih (Container.enter?_isLine h henter)

/-- A gap goes on with the containers before the first quote. -/
theorem enterAll_of_isGap (h : IsGap l.rest) (containers : List Container) :
    (enterAll containers l).1 = (containers.takeWhile Container.isPlain).length ∧
      IsGap (enterAll containers l).2.rest := by
  induction containers generalizing l with
  | nil => exact ⟨rfl, h⟩
  | cons container inner ih =>
    have henter := Container.enter?_of_isGap container h
    rw [enterAll]
    cases hplain : container.isPlain with
    | false =>
      rw [if_neg (by simp [hplain])] at henter
      rw [henter, List.takeWhile_cons_of_neg (by simp [hplain])]
      exact ⟨rfl, h⟩
    | true =>
      rw [if_pos hplain] at henter
      obtain ⟨after, hafter, hgap⟩ := henter
      rw [hafter, List.takeWhile_cons_of_pos hplain]
      exact ⟨congrArg (· + 1) (ih hgap).1, (ih hgap).2⟩

namespace Outline

theorem enter_isLine (o : Outline) (h : IsLine s) : IsLine (o.enter s).2.rest :=
  enterAll_isLine h _

theorem goOn_isLine (o : Outline) (h : IsLine s) : IsLine (o.goOn s).2.rest :=
  o.enter_isLine h

/-- The rest of a line that is inside of all open containers is a line. -/
theorem inside?_isLine (h : IsLine s) (hinside : o.inside? s = some l) : IsLine l.rest := by
  have henter := o.enter_isLine h
  rw [inside?] at hinside
  generalize o.enter s = entered at henter hinside
  obtain ⟨n, l'⟩ := entered
  dsimp only at hinside
  split at hinside
  · cases hinside
    exact henter
  · cases hinside

/-- The containers that a gap goes on with: those around the outermost quote. -/
def plainCount (o : Outline) : Nat :=
  (o.containers.takeWhile Container.isPlain).length

theorem enter_of_isGap (o : Outline) (h : IsGap s) :
    (o.enter s).1 = o.plainCount ∧ IsGap (o.enter s).2.rest :=
  enterAll_of_isGap h _

/-- A gap is inside of all open containers if none of them is a quote, and then nothing but a gap is
left of it. -/
theorem inside?_of_isGap (o : Outline) (h : IsGap s) :
    if o.plainCount = o.opened.length then ∃ l, o.inside? s = some l ∧ IsGap l.rest
    else o.inside? s = none := by
  obtain ⟨hcount, hrest⟩ := o.enter_of_isGap h
  rw [inside?]
  generalize o.enter s = entered at hcount hrest
  obtain ⟨n, l⟩ := entered
  obtain rfl : n = o.plainCount := hcount
  simp only [beq_iff_eq]
  split
  · exact ⟨l, rfl, hrest⟩
  · rfl

/-- No mark stands in a gap. -/
theorem openMarks_of_isGap (o : Outline) (h : IsGap l.rest) (fuel : Nat) :
    o.openMarks fuel l = (o, some l) := by
  cases fuel with
  | zero => rfl
  | succ fuel =>
    rw [openMarks, Line.listMark?_of_isGap h]
    dsimp only
    rw [Line.quoteMark?_of_isGap h]

/-- What is left of a line after the marks that open containers is a line again. -/
theorem openMarks_isLine {fuel : Nat} {o' : Outline} {after : Line} (h : IsLine l.rest)
    (hopen : o.openMarks fuel l = (o', some after)) : IsLine after.rest := by
  induction fuel generalizing o l with
  | zero =>
    cases hopen
    exact h
  | succ fuel ih =>
    rw [openMarks] at hopen
    split at hopen
    · next mark indent inner hmark =>
      have hinner := Line.listMark?_isLine h hmark
      dsimp only at hopen
      split at hopen
      · cases hopen
      · split at hopen
        · next checked text hbox =>
          split at hopen
          · cases hopen
          · exact ih (Line.checkbox?_isLine hinner hbox) hopen
        · exact ih hinner hopen
    · split at hopen
      · next inner hquote => exact ih (Line.quoteMark?_isLine h hquote) hopen
      · cases hopen
        exact h

end Outline

end Markdown
end Frontispiece
