import Frontispiece.Proofs.Artifact.Place
import Frontispiece.Proofs.Artifact.Strict

/-!
# The skeleton of a compact stylesheet

The scanner of `compactCss` goes through a text once and changes the end of what it has written.
It is shown to write the pieces of the text one after the other, each of them with the gap that its
place gives it, and what it writes is then read back.

## What is here

* `CssOutput.write` — what one piece does to the output.  `compactFrom_eq` says that the scanner, in
  whichever mode it is, does this for all that are left.
* `CssOutput.At` — the output knows the place: its blocks are those of the place, and its end is
  what was written since the last brace or semicolon.  `CssOutput.At.write` goes one piece on.
* `CssOutput.At.foldl_write` — what is written for pieces, up to a semicolon that a closing brace
  takes away (`CssOutput.settled`).
* `pieces_compactCss` — **the pieces of a compact stylesheet**.
* `compactCss_skeleton` — nothing but gaps and final semicolons is lost, and nothing is added.

The scanner decides about a space when the next character comes, by looking at what it has written
so far; the specification decides by looking at the pieces on both sides.  `At` is what ties the
two: the output ends with what was written since the last brace or semicolon, and the scanner needs
to look no further back than that.  A closing brace may take a semicolon off the output again, which
is why the invariant speaks of what stays of it (`settled`).
-/

set_option autoImplicit false

namespace Frontispiece
namespace Artifact

variable {mode : CssMode} {o : CssOutput} {c quote : Char} {gap s rest : List Char}
  {p : CssPiece} {ps : List CssPiece}

/-! ## Pieces written

The scanner works on characters and on its output so far.  The pieces are what it is thought to
write, and `write` says how one of them comes to the end of an output. -/

namespace CssOutput

/-- A piece written. -/
def write (o : CssOutput) (p : CssPiece) : CssOutput :=
  let o := { o with space := !p.gap.isEmpty }
  match p.item with
  | .string text => text.foldl push o.flush
  | .char c =>
    if c == ':' && o.blocks.head? != some true then o.emit c
    else if isCssSeparator c then o.separate c
    else o.emit c

/-- After what was written, no space is needed: it ends with a separator, or there is nothing. -/
def Full (o : CssOutput) : Prop :=
  ∀ c ∈ o.written.head?, isCssSeparator c = true

end CssOutput

/-! ## The scanner

It passes blanks and comments and remembers that it did so.  What it remembers is the gap of the
next piece, up to the question whether a space has a place at all where the output ends. -/

/-- A comment is passed. -/
theorem compactFrom_comment (star : Bool) (o : CssOutput) (s : List Char) :
    (compactFrom (.comment star) o s).written =
      (compactFrom .plain { o with space := true }
        (closeComment (if star then '*' :: s else s)).2).written := by
  induction s generalizing star with
  | nil => cases star <;> rfl
  | cons c rest ih =>
    have hstep : (closeComment (if c == '*' then '*' :: rest else rest)).2
        = (closeComment (c :: rest)).2 := by
      by_cases hc : c = '*'
      · rw [hc, if_pos (beq_self_eq_true _)]
      · rw [if_neg (by simpa using hc), closeComment_cons fun h => absurd h hc]
    rw [compactFrom.eq_def]
    dsimp only
    by_cases hend : star = true ∧ c = '/'
    · obtain ⟨rfl, rfl⟩ := hend
      rfl
    · rw [if_neg (by simpa using hend), ih, hstep]
      cases star with
      | false => rfl
      | true =>
        have hc : c ≠ '/' := fun hc => hend ⟨rfl, hc⟩
        rw [if_pos rfl, closeComment_cons (c := '*') (by simpa using hc)]

/-- A string is copied. -/
theorem compactFrom_string (hquote : isQuote quote = true) (o : CssOutput) (s : List Char) :
    compactFrom (.string quote false) o s =
      compactFrom .plain ((closeString quote s).1.foldl CssOutput.push o)
        (closeString quote s).2 := by
  fun_induction closeString quote s generalizing o with
  | case1 => rfl
  | case2 c rest ih => exact ih ((o.push '\\').push c)
  | case3 rest _ =>
    have hslash : quote ≠ '\\' := (ne_of_isQuote hquote rfl).symm
    rw [compactFrom.eq_def]
    dsimp only
    rw [if_neg Bool.false_ne_true, if_neg (by simpa using hslash), if_pos (beq_self_eq_true quote)]
    rfl
  | case4 c rest hslash hne ih =>
    rw [compactFrom.eq_def]
    dsimp only
    rw [if_neg Bool.false_ne_true, List.foldl_cons, ← ih]
    by_cases hc : c = '\\'
    · rcases rest with _ | ⟨d, rest⟩
      · rfl
      · exact absurd rfl (hslash d rest hc)
    · rw [if_neg (by simpa using hc), if_neg (by simpa using hne)]

/-- How a character is written that starts no comment: quotes open strings, blanks are held back,
and separators swallow the blanks around them. -/
theorem compactFrom_plain (hcomment : ¬(c = '/' ∧ rest.head? = some '*')) :
    compactFrom .plain o (c :: rest) =
      if isQuote c then compactFrom (.string c false) (o.emit c) rest
      else if Text.isBlank c then compactFrom .plain { o with space := true } rest
      else if c == ':' && o.blocks.head? != some true then compactFrom .plain (o.emit c) rest
      else if isCssSeparator c then compactFrom .gap (o.separate c) rest
      else compactFrom .plain (o.emit c) rest := by
  rw [compactFrom.eq_def]
  dsimp only
  rw [if_neg (by simp), if_neg (by simpa using hcomment)]
  rfl

theorem compactFrom_blank (h : Text.isBlank c = true) :
    compactFrom .plain o (c :: rest) = compactFrom .plain { o with space := true } rest := by
  have hquote : isQuote c ≠ true := fun hquote => by
    rw [isBlank_of_isQuote hquote] at h
    cases h
  rw [compactFrom_plain (fun hc => absurd (hc.1 ▸ h) (by decide)), if_neg hquote, if_pos h]

theorem compactFrom_gap_blank (h : Text.isBlank c = true) :
    compactFrom .gap o (c :: rest) = compactFrom .gap o rest := by
  rw [compactFrom.eq_def]
  dsimp only
  rw [if_pos (by simp [h])]

theorem compactFrom_gap (h : Text.isBlank c = false) :
    compactFrom .gap o (c :: rest) = compactFrom .plain o (c :: rest) := by
  rw [compactFrom.eq_def, compactFrom.eq_def .plain]
  dsimp only
  rw [if_neg (by simp [h]), if_neg (c := (CssMode.plain == .gap && _) = true) (by simp)]

namespace CssOutput

/-- The space of the output is that of the gap, or it has no place here. -/
def Awaits (o : CssOutput) (mode : CssMode) (gap : List Char) : Prop :=
  mode = .plain ∧ o.space = !gap.isEmpty ∨ (mode = .plain ∨ mode = .gap) ∧ o.Full

theorem flush_of_full (h : o.Full) : o.flush = { o with space := false } := by
  rw [flush]
  split
  · rfl
  · next last before hwritten =>
    rw [h last (by rw [hwritten]; rfl), Bool.not_true, Bool.and_false]
    rfl

theorem flush_of_cons {last : Char} {before : List Char} (h : o.written = last :: before)
    (space : Bool) : { o with space := space }.flush
      = (if space && !isCssSeparator last then [' '] else []).foldl push
        { o with space := false } := by
  rw [flush, h]
  dsimp only
  split <;> rfl

theorem flush_space (o : CssOutput) : o.flush.space = false := by
  rw [flush]
  split
  · rfl
  split <;> rfl

/-- The space counts as that of the gap. -/
theorem Awaits.flush_eq (h : o.Awaits mode gap) :
    o.flush = { o with space := !gap.isEmpty }.flush := by
  rcases h with ⟨-, hspace⟩ | ⟨-, hfull⟩
  · rw [← hspace]
  · have hother := flush_of_full (o := { o with space := !gap.isEmpty }) hfull
    exact (flush_of_full hfull).trans hother.symm

/-- After a separator no space is needed. -/
theorem separate_full (o : CssOutput) (h : isCssSeparator c = true) : (o.separate c).Full := by
  intro d hd
  rw [separate] at hd
  split at hd
  · exact Option.some.inj hd ▸ h
  split at hd
  · exact Option.some.inj hd ▸ h
  split at hd
  · exact Option.some.inj hd ▸ h
  · exact Option.some.inj hd ▸ h

/-- What is written comes at the end. -/
theorem foldl_push (o : CssOutput) (s : List Char) : s.foldl push o =
    { o with written := s.reverse ++ o.written, prelude := o.prelude + s.length } := by
  induction s generalizing o with
  | nil => rfl
  | cons c s ih =>
    rw [List.foldl_cons, ih, List.reverse_cons, List.append_assoc, List.length_cons,
      Nat.add_comm s.length, ← Nat.add_assoc]
    rfl

theorem foldl_write_space (o : CssOutput) (space : Bool) (ps : List CssPiece) :
    (ps.foldl write { o with space := space }).written = (ps.foldl write o).written := by
  cases ps <;> rfl

theorem Awaits.emit_eq (h : o.Awaits mode gap) (c : Char) :
    o.emit c = { o with space := !gap.isEmpty }.emit c := by
  rw [emit, emit, h.flush_eq]

/-- Where no space was passed, the next piece is awaited. -/
theorem awaits_nil (h : o.space = false) : o.Awaits .plain [] :=
  .inl ⟨rfl, h⟩

end CssOutput

theorem compactFrom_reading (h : o.Awaits mode gap) (hc : Text.isBlank c = false) :
    compactFrom mode o (c :: rest) = compactFrom .plain o (c :: rest) := by
  have hmode : mode = .plain ∨ mode = .gap := h.elim (fun h => .inl h.1) (fun h => h.1)
  rcases hmode with rfl | rfl
  · rfl
  · exact compactFrom_gap hc

/-- **The scanner writes the pieces one after the other.** -/
theorem compactFrom_eq (h : o.Awaits mode gap) :
    (compactFrom mode o s).written = ((piecesFrom gap s).foldl CssOutput.write o).written := by
  fun_induction piecesFrom gap s generalizing mode o with
  | case1 gap =>
    rw [compactFrom]
    rfl
  | case2 gap c rest hcomment ih =>
    obtain ⟨rfl, hstar⟩ := hcomment
    obtain ⟨rest, rfl⟩ := List.head?_eq_some_iff.mp hstar
    have hspace : { o with space := true }.Awaits .plain
        (gap ++ '/' :: '*' :: (closeComment rest).1) := .inl ⟨rfl, by simp⟩
    rw [compactFrom_reading h (by decide), ← CssOutput.foldl_write_space o true, ← ih hspace]
    exact compactFrom_comment false { o with space := true } rest
  | case3 gap c rest _ hblank ih =>
    have hspace : { o with space := true }.Awaits .plain (gap ++ [c]) := .inl ⟨rfl, by simp⟩
    rcases h with ⟨rfl, -⟩ | ⟨rfl | rfl, hfull⟩
    · rw [compactFrom_blank hblank, ← CssOutput.foldl_write_space o true, ih hspace]
    · rw [compactFrom_blank hblank, ← CssOutput.foldl_write_space o true, ih hspace]
    · rw [compactFrom_gap_blank hblank]
      exact ih (.inr ⟨.inr rfl, hfull⟩)
  | case4 gap c rest hcomment hblank hquote ih =>
    rw [compactFrom_reading h (by simpa using hblank), compactFrom_plain hcomment, if_pos hquote,
      compactFrom_string hquote, h.emit_eq]
    refine ih (CssOutput.awaits_nil ?_)
    rw [CssOutput.foldl_push]
    exact CssOutput.flush_space _
  | case5 gap c rest hcomment hblank hquote ih =>
    rw [compactFrom_reading h (by simpa using hblank), compactFrom_plain hcomment, if_neg hquote,
      if_neg hblank, List.foldl_cons, CssOutput.write, h.emit_eq]
    dsimp only
    split
    · exact ih (CssOutput.awaits_nil (CssOutput.flush_space _))
    split
    · next hseparator => exact ih (.inr ⟨.inr rfl, CssOutput.separate_full o hseparator⟩)
    · exact ih (CssOutput.awaits_nil (CssOutput.flush_space _))

/-! ## The output and its place

To know whether a colon belongs to a declaration, the scanner looks back at its output, to the last
brace or semicolon.  A place has the same knowledge in a form that can be carried from piece to
piece. -/

/-- A semicolon is the only item that ends with one, and the same holds of all separators. -/
theorem CssItem.IsClosed.text_eq {item : CssItem} (h : item.IsClosed) :
    ∃ init last, item.text = init ++ [last] ∧ isCssSeparator last = item.isSeparator ∧
      (last = ';' → item = .char ';') := by
  cases item with
  | char c => exact ⟨[], c, rfl, rfl, congrArg CssItem.char⟩
  | string text =>
    obtain ⟨quote, inner, hquote, rfl, -⟩ := h
    refine ⟨quote :: inner, quote, rfl, ?_, ?_⟩
    · rw [isQuote, Bool.or_eq_true, beq_iff_eq, beq_iff_eq] at hquote
      rcases hquote with rfl | rfl <;> rfl
    · rintro rfl
      cases hquote

/-- The pieces since the last brace or semicolon stay apart, with those that come. -/
theorem Tidy.next {place : CssPlace} (h : Tidy (place.prelude ++ p :: ps)) :
    Tidy ((place.next p).prelude ++ ps) := by
  have hps : Tidy ps := by
    have hchain := (List.isChain_append.mp h.apart).2.1
    exact ⟨fun q hq => h.proper q (List.mem_append_right _ (List.mem_cons_of_mem p hq)),
      (List.isChain_cons.mp hchain).2⟩
  rw [CssPlace.next]
  split
  · exact hps
  split
  · exact hps
  split
  · exact hps
  · rwa [List.append_assoc]

namespace CssOutput

/-- The output knows the place: its blocks are those of the place, and it ends with what was written
since the last brace or semicolon. -/
structure At (o : CssOutput) (place : CssPlace) : Prop where
  blocks : o.blocks = place.within.map fun prelude => !isGroupRule prelude
  written : ∃ before, o.written = (render place.compactPrelude).reverse ++ before ∧
    ∀ c ∈ before.head?, isCssSeparator c = true
  prelude : o.prelude = (render place.compactPrelude).length

/-- What stays of the output where these pieces come next: a closing brace takes a semicolon away. -/
def settled (o : CssOutput) (ps : List CssPiece) : List Char :=
  if ps.head?.map CssPiece.item = some (.char '}') ∧ o.written.head? = some ';' then o.written.tail
  else o.written

theorem settled_empty (ps : List CssPiece) : empty.settled ps = [] := by
  rw [settled]
  exact ite_self _

variable {place : CssPlace}

/-- A separator is written behind what is settled, and a semicolon before a closing brace is
dropped. -/
theorem separate_written (o : CssOutput) (hp : p.item = .char c) (ps : List CssPiece) :
    (o.separate c).written = c :: o.settled (p :: ps) := by
  rw [separate, settled, List.head?_cons, Option.map_some, hp]
  by_cases hbrace : c = '}'
  · rw [hbrace, if_neg (by decide), if_pos (beq_self_eq_true _)]
    dsimp only
    split
    · next hwritten =>
      rw [hwritten]
      rfl
    · next hwritten =>
      refine congrArg ('}' :: ·) (if_neg fun hhead => ?_).symm
      obtain ⟨before, hbefore⟩ := List.head?_eq_some_iff.mp hhead.2
      exact hwritten before hbefore
  · rw [if_neg (c := _ ∧ _) fun heq => hbrace (CssItem.char.inj (Option.some.inj heq.1))]
    split
    · rfl
    rw [if_neg (by simpa using hbrace)]
    split <;> rfl

/-- After a brace or a semicolon the output ends with it. -/
theorem exists_before_separate (o : CssOutput) (hc : isCssSeparator c = true)
    (within : List (List CssPiece)) : ∃ before,
      (o.separate c).written = (render (CssPlace.compactPrelude ⟨within, []⟩)).reverse ++ before ∧
      ∀ d ∈ before.head?, isCssSeparator d = true :=
  ⟨_, rfl, separate_full o hc⟩

theorem at_start : empty.At .start :=
  ⟨rfl, ⟨[], rfl, nofun⟩, rfl⟩

theorem At.declares (h : o.At place) : (o.blocks.head? != some true) = !place.declares := by
  rw [h.blocks, CssPlace.declares]
  rcases place.within with _ | ⟨prelude, within⟩
  · rfl
  · show (some (!isGroupRule prelude) != some true) = !!isGroupRule prelude
    cases isGroupRule prelude <;> rfl

/-- The space that is written is the gap that the place gives the piece. -/
theorem At.flush_eq (h : o.At place) (hclosed : ∀ q ∈ place.prelude.getLast?, q.item.IsClosed)
    (hp : isTight place.declares p = false) :
    { o with space := !p.gap.isEmpty }.flush
      = (place.gapBefore p).foldl push { o with space := false } := by
  obtain ⟨before, hwritten, hbefore⟩ := h.written
  obtain ⟨within, prelude⟩ := place
  rcases List.eq_nil_or_concat' prelude with rfl | ⟨prelude, q, rfl⟩
  · have hfull : { o with space := !p.gap.isEmpty }.Full := by
      rw [Full, hwritten]
      exact hbefore
    rw [CssPlace.gapBefore, List.getLast?_nil, gapAfter_none]
    exact flush_of_full hfull
  · obtain ⟨init, last, htext, hlast, -⟩ := (hclosed q List.getLast?_concat).text_eq
    rw [CssPlace.compactPrelude_concat ⟨within, prelude⟩, render_append, render_cons, render_nil,
      List.append_nil, htext, ← List.append_assoc, ← List.append_assoc, List.reverse_concat,
      List.cons_append] at hwritten
    rw [flush_of_cons hwritten, CssPlace.gapBefore, List.getLast?_concat, gapAfter, hp,
      Option.all_some, hlast, Bool.false_or, oneSpace]
    congr 1
    cases q.item.isSeparator <;> cases p.gap <;> rfl

theorem write_bracket (hp : p.item = .char c) (hc : isCssSeparator c = true) (hcolon : c ≠ ':') :
    o.write p = o.separate c := by
  rw [write, hp]
  dsimp only
  rw [if_neg (by simp [hcolon]), if_pos hc]
  rfl

/-- A piece that is no brace and no semicolon goes to the end of the output. -/
theorem At.write_eq (h : o.At place) (hclosed : ∀ q ∈ place.prelude.getLast?, q.item.IsClosed)
    (hopen : p.item ≠ .char '{') (hclose : p.item ≠ .char '}') (hsemicolon : p.item ≠ .char ';') :
    o.write p = (place.gapBefore p ++ p.item.text).foldl push { o with space := false } := by
  rw [List.foldl_append]
  obtain ⟨gap, item⟩ := p
  cases item with
  | string text => rw [← h.flush_eq hclosed (isTight_of_not_separator rfl)]; rfl
  | char c =>
    rw [write]
    dsimp only
    split
    · next hcolon =>
      rw [h.declares] at hcolon
      have htight : isTight place.declares ⟨gap, .char c⟩ = false := by
        obtain ⟨rfl, hrules⟩ : c = ':' ∧ place.declares = false := by simpa using hcolon
        rw [isTight, hrules]
        rfl
      rw [← h.flush_eq hclosed htight]
      rfl
    split
    · next hcolon hseparator =>
      have htight : isTight place.declares ⟨gap, .char c⟩ = true := by
        refine isTight_of_separator hseparator fun hc => ?_
        obtain rfl := CssItem.char.inj hc
        rw [h.declares] at hcolon
        simpa using hcolon
      rw [CssPlace.gapBefore, gapAfter_tight htight, separate, if_neg, if_neg, if_neg]
      · rfl
      · exact fun hc => hsemicolon (congrArg CssItem.char (beq_iff_eq.mp hc))
      · exact fun hc => hclose (congrArg CssItem.char (beq_iff_eq.mp hc))
      · exact fun hc => hopen (congrArg CssItem.char (beq_iff_eq.mp hc))
    · next hseparator =>
      have htight : isTight place.declares ⟨gap, .char c⟩ = false :=
        isTight_of_not_separator (Bool.eq_false_iff.mpr hseparator)
      rw [← h.flush_eq hclosed htight]
      rfl

/-- **One piece more.** -/
theorem At.write (h : o.At place) (hproper : ∀ q ∈ place.prelude, q.item.IsProper)
    (hclosed : ∀ q ∈ place.prelude.getLast?, q.item.IsClosed) (p : CssPiece) :
    (o.write p).At (place.next p) := by
  obtain ⟨before, hwritten, hbefore⟩ := h.written
  by_cases hopen : p.item = .char '{'
  · have hprelude : (o.written.take o.prelude).reverse = render place.compactPrelude := by
      rw [hwritten, h.prelude, List.take_left' List.length_reverse, List.reverse_reverse]
    rw [write_bracket hopen rfl (by decide), CssPlace.next, if_pos hopen]
    refine ⟨?_, exists_before_separate o rfl _, rfl⟩
    show (!holdsRules (o.written.take o.prelude).reverse) :: o.blocks = _
    rw [hprelude, CssPlace.compactPrelude, holdsRules_render _ hproper, h.blocks]
    rfl
  by_cases hclose : p.item = .char '}'
  · rw [write_bracket hclose rfl (by decide), CssPlace.next, if_neg hopen, if_pos hclose]
    refine ⟨?_, exists_before_separate o rfl _, rfl⟩
    show o.blocks.tail = _
    rw [h.blocks, List.map_tail]
  by_cases hsemicolon : p.item = .char ';'
  · rw [write_bracket hsemicolon rfl (by decide), CssPlace.next, if_neg hopen, if_neg hclose,
      if_pos hsemicolon]
    exact ⟨h.blocks, exists_before_separate o rfl _, rfl⟩
  · rw [h.write_eq hclosed hopen hclose hsemicolon, foldl_push,
      CssPlace.next_of_not_bracket hopen hclose hsemicolon]
    have hrender : render (CssPlace.compactPrelude ⟨place.within, place.prelude ++ [p]⟩)
        = render place.compactPrelude ++ (place.gapBefore p ++ p.item.text) := by
      rw [CssPlace.compactPrelude_concat, render_append, render_cons, render_nil, List.append_nil]
    refine ⟨h.blocks, ⟨before, ?_, hbefore⟩, ?_⟩
    · show (place.gapBefore p ++ p.item.text).reverse ++ o.written = _
      rw [hrender, hwritten, ← List.append_assoc, ← List.reverse_append]
    · show o.prelude + (place.gapBefore p ++ p.item.text).length = _
      rw [hrender, h.prelude, ← List.length_append]

/-- What a piece adds to the output. -/
theorem At.write_written (h : o.At place)
    (hclosed : ∀ q ∈ place.prelude.getLast?, q.item.IsClosed) (p : CssPiece) (ps : List CssPiece) :
    (o.write p).written
      = p.item.text.reverse ++ ((place.gapBefore p).reverse ++ o.settled (p :: ps)) := by
  have hbracket {c : Char} (hp : p.item = .char c) (hc : isCssSeparator c = true) (hne : c ≠ ':') :
      (o.write p).written
        = p.item.text.reverse ++ ((place.gapBefore p).reverse ++ o.settled (p :: ps)) := by
    rw [write_bracket hp hc hne, separate_written o hp ps, gapBefore_separator place hp hc hne, hp]
    rfl
  by_cases hopen : p.item = .char '{'
  · exact hbracket hopen rfl (by decide)
  by_cases hclose : p.item = .char '}'
  · exact hbracket hclose rfl (by decide)
  by_cases hsemicolon : p.item = .char ';'
  · exact hbracket hsemicolon rfl (by decide)
  · have hsettled : o.settled (p :: ps) = o.written :=
      if_neg fun hbrace => hclose (Option.some.inj hbrace.1)
    rw [h.write_eq hclosed hopen hclose hsemicolon, foldl_push, List.reverse_append,
      List.append_assoc, hsettled]

/-- A semicolon is taken away again by the brace after it, and nothing else is. -/
theorem settled_write (hclosed : ps ≠ [] → p.item.IsClosed)
    (hwritten : (o.write p).written
      = p.item.text.reverse ++ ((place.gapBefore p).reverse ++ o.settled (p :: ps))) :
    (o.write p).settled ps =
      if p.item = .char ';' ∧ ps.head?.map CssPiece.item = some (.char '}') then
        o.settled (p :: ps)
      else (o.write p).written := by
  split
  · next hfinal =>
    have hgap : place.gapBefore p = [] := gapBefore_separator place hfinal.1 rfl (by decide)
    rw [hgap, hfinal.1] at hwritten
    rw [settled, if_pos ⟨hfinal.2, by rw [hwritten]; rfl⟩, hwritten]
    rfl
  · next hfinal =>
    refine if_neg fun ⟨hbrace, hhead⟩ => hfinal ⟨?_, hbrace⟩
    have hps : ps ≠ [] := by rintro rfl; cases hbrace
    obtain ⟨init, last, htext, -, hlast⟩ := (hclosed hps).text_eq
    rw [hwritten, htext, List.reverse_concat, List.cons_append] at hhead
    exact hlast (Option.some.inj hhead)

/-- **The pieces are written with the gaps of their places.** -/
theorem At.foldl_write (h : o.At place) (htidy : Tidy (place.prelude ++ ps)) :
    (ps.foldl CssOutput.write o).written.reverse
      = (o.settled ps).reverse ++ render (compacted (gapped place ps)) := by
  induction ps generalizing o place with
  | nil =>
    rw [settled, if_neg fun hbrace => nomatch hbrace.1]
    exact (List.append_nil _).symm
  | cons p ps ih =>
    obtain ⟨hbefore, hps, hlast⟩ := List.isChain_append.mp htidy.apart
    have hproper : ∀ q ∈ place.prelude, q.item.IsProper := fun q hq =>
      htidy.proper q (List.mem_append_left _ hq)
    have hclosed : ∀ q ∈ place.prelude.getLast?, q.item.IsClosed := fun q hq =>
      (hlast q hq p rfl).1
    have hend : ps ≠ [] → p.item.IsClosed := fun hne => by
      obtain ⟨q, rest, rfl⟩ := List.exists_cons_of_ne_nil hne
      exact (List.isChain_cons_cons.mp hps).1.1
    have hwritten := h.write_written hclosed p ps
    rw [List.foldl_cons, ih (h.write hproper hclosed p) (htidy.next), settled_write hend hwritten,
      gapped]
    split
    · rfl
    · rw [hwritten, compacted_cons, render_cons]
      simp only [List.reverse_append, List.reverse_reverse, List.append_assoc]

end CssOutput

variable {es : List (CssPiece × List Char)}

/-! ## The compact stylesheet

What was written is read back piece by piece, as it is tidy.  The text is trimmed last: it begins
with no blank anyway, and at its end only a string without an end can lose anything by that. -/

/-- Pieces that are tidy stay so, since what is written keeps those apart that need it. -/
theorem Spacing.tidy (h : Spacing es) (htidy : Tidy (es.map Prod.fst)) : Tidy (compacted es) := by
  refine ⟨fun q hq => ?_, ?_⟩
  · obtain ⟨e, he, rfl⟩ := List.mem_map.mp hq
    exact htidy.proper e.1 (List.mem_map_of_mem he)
  · rw [compacted, List.isChain_map, List.isChain_iff_getElem]
    intro i hi
    have hbefore := List.isChain_iff_getElem.mp ((List.isChain_map Prod.fst).mp htidy.apart) i hi
    have hbetween := List.isChain_iff_getElem.mp h.between i hi
    refine ⟨hbefore.1, fun ⟨hslash, hstar⟩ => hbefore.2 ⟨hslash, ?_⟩⟩
    obtain ⟨hgap, hitem⟩ := CssPiece.mk.inj hstar
    have hspace := hbetween (by rw [hslash]; rfl) (by rw [hitem]; rfl)
    exact congrArg₂ CssPiece.mk (oneSpace_eq_nil.mp (hspace.symm.trans hgap)) hitem

/-- The text that is written begins with no blank. -/
theorem trim_render (h : Spacing es) (htidy : Tidy (compacted es)) :
    Text.trim (render (compacted es)) = render (trimLast (compacted es)) := by
  rw [render_trimLast htidy.proper, Text.trim]
  congr 1
  rcases es with _ | ⟨⟨p, g⟩, es⟩
  · rfl
  · obtain rfl : g = [] := h.first _ rfl
    obtain ⟨c, rest, htext, hc⟩ := (htidy.proper _ List.mem_cons_self).text_eq
    rw [compacted, List.map_cons, render_cons, List.nil_append, htext, List.cons_append,
      Text.trimStart, List.dropWhile_cons_of_neg (by simp [hc])]

theorem tidy_compacted (css : List Char) : Tidy (compacted (gapped .start (pieces css))) :=
  (spacing_gapped (pieces css)).tidy
    (map_fst_gapped .start (pieces css) ▸ (tidy_piecesFrom [] css).withoutFinal)

/-- A compact stylesheet is written piece by piece, up to blanks at the end. -/
theorem compactCss_eq (css : List Char) :
    compactCss css = render (trimLast (compacted (gapped .start (pieces css)))) := by
  have hwritten : (compactFrom .plain .empty css).written.reverse
      = render (compacted (gapped .start (pieces css))) := by
    rw [compactFrom_eq (CssOutput.awaits_nil rfl),
      CssOutput.at_start.foldl_write (tidy_piecesFrom [] css), CssOutput.settled_empty]
    rfl
  rw [compactCss, hwritten, trim_render (spacing_gapped (pieces css)) (tidy_compacted css)]

/-- **The pieces of a compact stylesheet** are those of the stylesheet with the gaps of their places,
but for the blanks at the end of a last string that has no end. -/
theorem pieces_compactCss (css : List Char) :
    pieces (compactCss css) = trimLast (compacted (gapped .start (pieces css))) := by
  have hspacing := spacing_gapped (pieces css)
  rw [compactCss_eq]
  refine pieces_render (tidy_compacted css).trimLast fun p hp => ?_
  have hgap := List.mem_map_of_mem (f := CssPiece.gap) hp
  rw [map_trimLast (fun _ => rfl), compacted, List.map_map] at hgap
  obtain ⟨e, he, heq⟩ := List.mem_map.mp hgap
  exact heq ▸ hspacing.gaps e he

theorem exists_pieces_compactCss (css : List Char) : ∃ es, Spacing es ∧
    es.map Prod.fst = withoutFinal (pieces css) ∧
    pieces (compactCss css) = trimLast (compacted es) :=
  ⟨gapped .start (pieces css), spacing_gapped _, map_fst_gapped _ _, pieces_compactCss css⟩

theorem items_trimLast_compacted (es : List (CssPiece × List Char)) :
    (trimLast (compacted es)).map CssPiece.item
      = (trimLast (es.map Prod.fst)).map CssPiece.item := by
  rcases List.eq_nil_or_concat' es with rfl | ⟨es, e, rfl⟩
  · rfl
  · rw [compacted_concat, List.map_append, List.map_singleton, trimLast_concat, trimLast_concat,
      List.map_append, List.map_append, compacted, List.map_map, List.map_map]
    rfl

/-- A piece that is read back is one that was written. -/
theorem getElem?_trimLast_compacted {i : Nat} (h : (trimLast (compacted es))[i]? = some p) :
    ∃ e, es[i]? = some e ∧ e.2 = p.gap ∧ e.1.item.isSeparator = p.item.isSeparator := by
  let seen (p : CssPiece) := (p.gap, p.item.isSeparator)
  have hseen : ((trimLast (compacted es)).map seen)[i]? = some (seen p) := by
    rw [List.getElem?_map, h]
    rfl
  rw [map_trimLast (fun p => by simp [seen]), compacted, List.map_map, List.getElem?_map] at hseen
  obtain ⟨e, he, heq⟩ := Option.map_eq_some_iff.mp hseen
  exact ⟨e, he, congrArg Prod.fst heq, congrArg Prod.snd heq⟩

/-- **Nothing is lost, added or moved but blanks, comments and final semicolons.**

* A stylesheet is made of its pieces: they are its text, one after the other, up to what may come
  after the last item; and what is in front of an item is nothing but blanks and comments.
* The items of a compact stylesheet are those of the stylesheet, without each semicolon that comes
  directly before a closing brace, and without blanks at the end of a last string that has no end.
* Where the last item has its end, they are the same items.
* Between two items that are no separators there is one space if the stylesheet has a blank or a
  comment before the second, and nothing otherwise.
* The text since the last brace or semicolon is always a slice of what was written. -/
theorem compactCss_skeleton (css : List Char) :
    (render (pieces css) <+: css ∧ ∀ p ∈ pieces css, IsCssGap p.gap) ∧
    (pieces (compactCss css)).map CssPiece.item
      = (trimLast (withoutFinal (pieces css))).map CssPiece.item ∧
    ((∀ p ∈ (withoutFinal (pieces css)).getLast?, p.item.IsClosed) →
      (pieces (compactCss css)).map CssPiece.item = (withoutFinal (pieces css)).map CssPiece.item) ∧
    (∀ i p q, (pieces (compactCss css))[i]? = some p → (pieces (compactCss css))[i + 1]? = some q →
      p.item.isSeparator = false → q.item.isSeparator = false →
      ∃ r, (withoutFinal (pieces css))[i + 1]? = some r ∧
        q.gap = if r.gap = [] then [] else [' ']) ∧
    Strict.compactCss? css = some (compactCss css) := by
  obtain ⟨es, hspacing, hbefore, hafter⟩ := exists_pieces_compactCss css
  have hitems : (pieces (compactCss css)).map CssPiece.item
      = (trimLast (withoutFinal (pieces css))).map CssPiece.item := by
    rw [← hbefore, hafter]
    exact items_trimLast_compacted es
  have hpieces : render (pieces css) <+: css := render_piecesFrom_prefix [] css
  refine ⟨⟨hpieces, isCssGap_of_mem_piecesFrom .nil⟩, hitems, fun hclosed => ?_,
    fun i p q hp hq hpsep hqsep => ?_, Strict.compactCss?_eq css⟩
  · rw [hitems, trimLast_of_isClosed hclosed]
  · rw [hafter] at hp hq
    rw [← hbefore]
    obtain ⟨d, hd, -, hdsep⟩ := getElem?_trimLast_compacted hp
    obtain ⟨e, he, hegap, hesep⟩ := getElem?_trimLast_compacted hq
    obtain ⟨hi, rfl⟩ := List.getElem?_eq_some_iff.mp hd
    obtain ⟨hi', rfl⟩ := List.getElem?_eq_some_iff.mp he
    have hbetween := List.isChain_iff_getElem.mp hspacing.between i hi'
    exact ⟨_, by rw [List.getElem?_map, he]; rfl,
      hegap ▸ hbetween (hdsep.trans hpsep) (hesep.trans hqsep)⟩

example : compactCss ".a  > .b /* c */ :hover , 'd  e'".toList
    = ".a>.b :hover,'d  e'".toList := by cbv

end Artifact
end Frontispiece
