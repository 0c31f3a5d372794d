import Frontispiece.Artifact.Css
import Frontispiece.Proofs.Text.Offset

/-!
# Slices of a compact stylesheet

To tell what a block holds, the text since the last brace or semicolon is needed.  `CssOutput` keeps
the number of its characters.  Here it is a slice of all that was written, from an offset in bytes,
and `none` stands for an offset that is behind the end or inside a character.

## What is here

* `sliceFrom?` — the text from an offset on.
* `Strict.CssBuffer`, `Strict.compactFrom`, `Strict.compactCss?` — the scanner with slices.
* `Strict.separate_ofOutput` — one separator: the slice is there, and the buffer goes on as the
  output does.
* `Strict.compactFrom_ofOutput` — the same for a whole stylesheet.

The offset at which the slice starts is not computed from the text but remembered: it is the length
of the output at the time of the last brace or semicolon.  Later the output may have lost a
character at its end, so it is not obvious that the offset is still inside of it.  The invariant is
that the output is some text up to the offset and then the text since, which separators keep.
-/

set_option autoImplicit false

namespace Frontispiece
namespace Artifact

/-- The text from the byte at `n` on. -/
def sliceFrom? : List Char → Nat → Option (List Char)
  | s, 0 => some s
  | [], _ + 1 => none
  | c :: rest, n + 1 => if n + 1 < c.utf8Size then none else sliceFrom? rest (n + 1 - c.utf8Size)

/-- A text is cut at the length of its first part without a miss, since a character begins there. -/
theorem sliceFrom?_append (s t : List Char) :
    sliceFrom? (s ++ t) (Text.byteLength s) = some t := by
  induction s with
  | nil => cases t <;> rfl
  | cons c s ih =>
    have hpos := c.utf8Size_pos
    obtain ⟨n, hn⟩ := Nat.exists_eq_add_one_of_ne_zero (n := Text.byteLength (c :: s))
      (by rw [Text.byteLength_cons]; omega)
    have hle : ¬n + 1 < c.utf8Size := by
      rw [← hn, Text.byteLength_cons]
      omega
    have hrest : n + 1 - c.utf8Size = Text.byteLength s := by
      rw [← hn, Text.byteLength_cons]
      omega
    rw [hn, List.cons_append, sliceFrom?, if_neg hle, hrest, ih]

namespace Strict

/-- What has been written. -/
structure CssBuffer where
  text : List Char
  /-- The offset after the last brace or semicolon. -/
  start : Nat
  /-- Whether blanks or a comment were passed since the last of what was written. -/
  space : Bool
  /-- The open blocks, innermost first: whether they hold declarations. -/
  blocks : List Bool

namespace CssBuffer

/-- One character more. -/
def push (b : CssBuffer) (c : Char) : CssBuffer :=
  { b with text := b.text ++ [c] }

/-- The space that was passed, if it matters here. -/
def flush (b : CssBuffer) : CssBuffer :=
  if b.space && b.text.getLast?.any fun last => !isCssSeparator last then
    { b.push ' ' with space := false }
  else { b with space := false }

/-- One character after the space before it. -/
def emit (b : CssBuffer) (c : Char) : CssBuffer :=
  b.flush.push c

/-- The offset after all that was written. -/
def mark (b : CssBuffer) : CssBuffer :=
  { b with start := Text.byteLength b.text }

/-- A separator. -/
def separate (b : CssBuffer) (c : Char) : Option CssBuffer :=
  let b := { b with space := false }
  if c == '{' then do
    let prelude ← sliceFrom? b.text b.start
    some ({ b with blocks := (!holdsRules prelude) :: b.blocks }.push c).mark
  else if c == '}' then
    let b := { b with blocks := b.blocks.tail }
    let b := if b.text.getLast? == some ';' then { b with text := b.text.dropLast } else b
    some (b.push c).mark
  else if c == ';' then some (b.push c).mark
  else some (b.push c)

end CssBuffer

/-- What is written after the rest of a stylesheet, unless a slice fails. -/
def compactFrom (mode : CssMode) (b : CssBuffer) : List Char → Option CssBuffer
  | [] => some b
  | c :: rest =>
    match mode with
    | .comment star =>
      if star && c == '/' then compactFrom .plain { b with space := true } rest
      else compactFrom (.comment (c == '*')) b rest
    | .string quote escaped =>
      let mode :=
        if escaped then .string quote false
        else if c == '\\' then .string quote true
        else if c == quote then .plain
        else .string quote false
      compactFrom mode (b.push c) rest
    | mode =>
      if mode == .gap && Text.isBlank c then compactFrom .gap b rest
      else if c == '/' && rest.head? == some '*' then
        match rest with
        | _ :: rest => compactFrom (.comment false) { b with space := true } rest
        | [] => some b
      else if c == '"' || c == '\'' then compactFrom (.string c false) (b.emit c) rest
      else if Text.isBlank c then compactFrom .plain { b with space := true } rest
      else if c == ':' && b.blocks.head? != some true then compactFrom .plain (b.emit c) rest
      else if isCssSeparator c then do
        let b ← b.separate c
        compactFrom .gap b rest
      else compactFrom .plain (b.emit c) rest

/-- A stylesheet without what does not matter, unless a slice fails. -/
def compactCss? (css : List Char) : Option (List Char) := do
  let b ← compactFrom .plain ⟨[], 0, false, []⟩ css
  some (Text.trim b.text)

/-- The buffer that an output stands for. -/
def ofOutput (o : CssOutput) : CssBuffer :=
  ⟨o.written.reverse, Text.byteLength (o.written.drop o.prelude).reverse, o.space, o.blocks⟩

theorem space_ofOutput (o : CssOutput) : (ofOutput o).space = o.space := rfl

theorem blocks_ofOutput (o : CssOutput) : (ofOutput o).blocks = o.blocks := rfl

theorem push_ofOutput (o : CssOutput) (c : Char) : (ofOutput o).push c = ofOutput (o.push c) := by
  rw [CssBuffer.push, ofOutput, ofOutput, CssOutput.push, List.reverse_cons, List.drop_succ_cons]

/-- A character is written to the buffer as to the output. -/
theorem emit_ofOutput (o : CssOutput) (c : Char) : (ofOutput o).emit c = ofOutput (o.emit c) := by
  have hflush : (ofOutput o).flush = ofOutput o.flush := by
    rw [CssBuffer.flush, CssOutput.flush]
    rcases hwritten : o.written with _ | ⟨last, before⟩
    · simp [ofOutput, hwritten]
    · have hlast : (ofOutput o).text.getLast? = some last := by simp [ofOutput, hwritten]
      rw [hlast, Option.any_some, space_ofOutput, push_ofOutput]
      dsimp only
      split
      · rfl
      · simp [ofOutput, hwritten]
  rw [CssBuffer.emit, hflush, push_ofOutput, CssOutput.emit]

/-- The slice is the text since the last brace or semicolon. -/
theorem sliceFrom?_ofOutput (o : CssOutput) : sliceFrom? (ofOutput o).text (ofOutput o).start
    = some (o.written.take o.prelude).reverse := by
  have hsplit : (ofOutput o).text
      = (o.written.drop o.prelude).reverse ++ (o.written.take o.prelude).reverse := by
    rw [← List.reverse_append, List.take_append_drop]
    rfl
  rw [hsplit]
  exact sliceFrom?_append _ _

/-- **No slice fails at a separator.** -/
theorem separate_ofOutput (o : CssOutput) (c : Char) :
    (ofOutput o).separate c = some (ofOutput (o.separate c)) := by
  have hslice : sliceFrom? o.written.reverse (ofOutput o).start
      = some (o.written.take o.prelude).reverse := sliceFrom?_ofOutput o
  rw [CssBuffer.separate, CssOutput.separate]
  split
  · simp only [ofOutput] at hslice ⊢
    rw [hslice]
    simp [CssBuffer.push, CssBuffer.mark]
  split
  · -- the semicolon that is dropped is the last of the buffer
    rcases hwritten : o.written with _ | ⟨last, before⟩
    · simp [CssBuffer.push, CssBuffer.mark, ofOutput, hwritten]
    · by_cases hlast : last = ';'
      · simp [CssBuffer.push, CssBuffer.mark, ofOutput, hwritten, hlast]
      · simp [CssBuffer.push, CssBuffer.mark, ofOutput, hwritten, hlast]
  split
  · simp [CssBuffer.push, CssBuffer.mark, ofOutput]
  · exact congrArg some (push_ofOutput { o with space := false } c)

/-- How the strict scanner goes on outside of comments and strings.  Only separators look at what
has been written. -/
theorem compactFrom_cons {mode : CssMode} (hcomment : ∀ star, mode = .comment star → False)
    (hstring : ∀ quote escaped, mode = .string quote escaped → False) (b : CssBuffer) (c : Char)
    (rest : List Char) : compactFrom mode b (c :: rest) =
      if mode == .gap && Text.isBlank c then compactFrom .gap b rest
      else if c == '/' && rest.head? == some '*' then
        compactFrom (.comment false) { b with space := true } rest.tail
      else if c == '"' || c == '\'' then compactFrom (.string c false) (b.emit c) rest
      else if Text.isBlank c then compactFrom .plain { b with space := true } rest
      else if c == ':' && b.blocks.head? != some true then compactFrom .plain (b.emit c) rest
      else if isCssSeparator c then (b.separate c).bind fun b => compactFrom .gap b rest
      else compactFrom .plain (b.emit c) rest := by
  rw [compactFrom.eq_def]
  cases mode with
  | comment star => exact absurd rfl (hcomment star)
  | string quote escaped => exact absurd rfl (hstring quote escaped)
  | plain =>
    cases rest with
    | nil => simp
    | cons d rest => rfl
  | gap =>
    cases rest with
    | nil => simp
    | cons d rest => rfl

/-- **Every slice is there**, so that the scanner writes what it writes without them. -/
theorem compactFrom_ofOutput (mode : CssMode) (o : CssOutput) (s : List Char) :
    compactFrom mode (ofOutput o) s = some (ofOutput (Artifact.compactFrom mode o s)) := by
  fun_induction Artifact.compactFrom mode o s with
  | case1 => rfl
  | case2 o c rest star hend ih =>
    rw [compactFrom, if_pos hend]
    exact ih
  | case3 o c rest star hend ih => rw [compactFrom, if_neg hend, ih]
  | case4 o c rest quote escaped mode ih => rw [compactFrom, push_ofOutput, ih]
  | case5 o c rest mode hcomment hstring hgap ih =>
    rw [compactFrom_cons hcomment hstring, if_pos hgap, ih]
  | case6 o c mode hcomment hstring hgap _ rest hopen ih =>
    rw [compactFrom_cons hcomment hstring, if_neg hgap, if_pos hopen]
    exact ih
  | case7 o c mode hcomment hstring hgap hopen => simp at hopen
  | case8 o c rest mode hcomment hstring hgap hopen hquote ih =>
    rw [compactFrom_cons hcomment hstring, if_neg hgap, if_neg hopen, if_pos hquote, emit_ofOutput,
      ih]
  | case9 o c rest mode hcomment hstring hgap hopen hquote hblank ih =>
    rw [compactFrom_cons hcomment hstring, if_neg hgap, if_neg hopen, if_neg hquote, if_pos hblank]
    exact ih
  | case10 o c rest mode hcomment hstring hgap hopen hquote hblank hcolon ih =>
    rw [compactFrom_cons hcomment hstring, if_neg hgap, if_neg hopen, if_neg hquote, if_neg hblank,
      blocks_ofOutput, if_pos hcolon, emit_ofOutput, ih]
  | case11 o c rest mode hcomment hstring hgap hopen hquote hblank hcolon hseparator ih =>
    rw [compactFrom_cons hcomment hstring, if_neg hgap, if_neg hopen, if_neg hquote, if_neg hblank,
      blocks_ofOutput, if_neg hcolon, if_pos hseparator, separate_ofOutput]
    exact ih
  | case12 o c rest mode hcomment hstring hgap hopen hquote hblank hcolon hseparator ih =>
    rw [compactFrom_cons hcomment hstring, if_neg hgap, if_neg hopen, if_neg hquote, if_neg hblank,
      blocks_ofOutput, if_neg hcolon, if_neg hseparator, emit_ofOutput, ih]

/-- **A stylesheet is made compact without a slice out of range.** -/
theorem compactCss?_eq (css : List Char) : compactCss? css = some (compactCss css) := by
  have h := compactFrom_ofOutput .plain .empty css
  rw [compactCss?]
  exact (congrArg (Option.bind · _) h)

end Strict
end Artifact
end Frontispiece
