import Frontispiece.Artifact.Css
import Frontispiece.Proofs.Text.Pieces
import Mathlib.Data.List.Chain
import Mathlib.Data.List.Infix

/-!
# The skeleton of a stylesheet

A stylesheet is a sequence of strings and of characters outside of strings, with blanks and comments
in the gaps between them.  This holds of every text: a comment or a string that nothing closes goes
to the end of the text, and braces need not match.

## What is here

* `CssItem`, `CssPiece`, `pieces` — the items of a text, each with the gap before it.
* `render_piecesFrom_prefix` — the pieces, one after the other, are the text, and by
  `isCssGap_of_mem_piecesFrom` their gaps are blanks and comments.
* `Tidy` — pieces that stay apart: none but the last is a string without its end, and no two of them
  make a comment.  `tidy_piecesFrom` says that what is read from a text is tidy.
* `pieces_render` — **tidy pieces with at most a space between them are read back as they are**.
* `withoutFinal`, `trimLast` — the pieces without the final semicolons of blocks, and without the
  blanks at the end of a string that nothing closes.

Blanks and comments are not items but belong to the item after them, because whether one of them is
kept is settled there.  With this the text can be taken apart and put together again without loss,
and what a stylesheet says is the list of its items.

`Tidy` is the condition under which pieces that are written one after the other are read as the same
pieces.  It looks at neighbours only, so it is kept when pieces are left out, as long as new
neighbours stay apart, too.
-/

set_option autoImplicit false

namespace Frontispiece
namespace Artifact

/-! ## Items

Strings are kept whole, as blanks in them count, and every other character is an item of its own.
So no word of the language has to be known. -/

/-- The characters that open and close a string. -/
def isQuote (c : Char) : Bool :=
  c == '"' || c == '\''

/-- What a stylesheet is made of. -/
inductive CssItem where
  | char (c : Char)
  /-- A string with its quotes. -/
  | string (text : List Char)
  deriving DecidableEq, Repr

namespace CssItem

/-- The text of an item. -/
def text : CssItem → List Char
  | char c => [c]
  | string text => text

/-- Whether an item is one of the characters that need no space beside them. -/
def isSeparator : CssItem → Bool
  | char c => isCssSeparator c
  | string _ => false

end CssItem

/-- An item and the blanks and comments before it. -/
structure CssPiece where
  gap : List Char
  item : CssItem
  deriving DecidableEq, Repr

/-- The text of pieces, one after the other. -/
def render (ps : List CssPiece) : List Char :=
  ps.flatMap fun p => p.gap ++ p.item.text

@[simp] theorem render_nil : render [] = [] := rfl

@[simp] theorem render_cons (p : CssPiece) (ps : List CssPiece) :
    render (p :: ps) = p.gap ++ p.item.text ++ render ps := rfl

@[simp] theorem render_append (ps qs : List CssPiece) :
    render (ps ++ qs) = render ps ++ render qs :=
  List.flatMap_append

/-! ## Reading a text

The text is cut from left to right.  Each branch takes characters off its front, and what it takes
is either put into the gap or makes an item. -/

/-- A comment after its first two characters, up to its end or to the end of the text, and what
comes after it. -/
def closeComment : List Char → List Char × List Char
  | [] => ([], [])
  | '*' :: '/' :: rest => (['*', '/'], rest)
  | c :: rest => (c :: (closeComment rest).1, (closeComment rest).2)

/-- A string after its first quote, up to its end or to the end of the text, and what comes after
it.  A backslash takes the character after it along. -/
def closeString (quote : Char) : List Char → List Char × List Char
  | [] => ([], [])
  | '\\' :: c :: rest => ('\\' :: c :: (closeString quote rest).1, (closeString quote rest).2)
  | c :: rest =>
    if c = quote then ([c], rest)
    else (c :: (closeString quote rest).1, (closeString quote rest).2)

theorem closeComment_append (s : List Char) :
    (closeComment s).1 ++ (closeComment s).2 = s := by
  fun_induction closeComment s with
  | case1 => rfl
  | case2 => rfl
  | case3 c rest _ ih => rw [List.cons_append, ih]

theorem closeComment_cons {c : Char} {rest : List Char} (h : c = '*' → rest.head? ≠ some '/') :
    closeComment (c :: rest) = (c :: (closeComment rest).1, (closeComment rest).2) := by
  rw [closeComment.eq_3]
  rintro r hc rfl
  exact h hc rfl

theorem closeString_append (quote : Char) (s : List Char) :
    (closeString quote s).1 ++ (closeString quote s).2 = s := by
  fun_induction closeString quote s with
  | case1 => rfl
  | case2 c rest ih => rw [List.cons_append, List.cons_append, ih]
  | case3 => rfl
  | case4 c rest _ _ ih => rw [List.cons_append, ih]

theorem closeComment_length (s : List Char) : (closeComment s).2.length ≤ s.length := by
  have h := congrArg List.length (closeComment_append s)
  rw [List.length_append] at h
  omega

theorem closeString_length (quote : Char) (s : List Char) :
    (closeString quote s).2.length ≤ s.length := by
  have h := congrArg List.length (closeString_append quote s)
  rw [List.length_append] at h
  omega

/-- The pieces of the rest of a text, where `gap` was read since the last item. -/
def piecesFrom (gap : List Char) : List Char → List CssPiece
  | [] => []
  | c :: rest =>
    if c = '/' ∧ rest.head? = some '*' then
      piecesFrom (gap ++ '/' :: '*' :: (closeComment rest.tail).1) (closeComment rest.tail).2
    else if Text.isBlank c then piecesFrom (gap ++ [c]) rest
    else if isQuote c then
      ⟨gap, .string (c :: (closeString c rest).1)⟩ :: piecesFrom [] (closeString c rest).2
    else ⟨gap, .char c⟩ :: piecesFrom [] rest
  termination_by s => s.length
  decreasing_by
    · have hlength := closeComment_length rest.tail
      rw [List.length_tail] at hlength
      exact Nat.lt_succ_of_le (hlength.trans (Nat.sub_le _ _))
    · exact Nat.lt_succ_self _
    · exact Nat.lt_succ_of_le (closeString_length c rest)
    · exact Nat.lt_succ_self _

theorem piecesFrom_nil (gap : List Char) : piecesFrom gap [] = [] := by
  rw [piecesFrom]

/-- The pieces of a text. -/
def pieces (css : List Char) : List CssPiece :=
  piecesFrom [] css

/-- **The pieces are the text**, and what may come after them is a gap. -/
theorem render_piecesFrom_prefix (gap s : List Char) : render (piecesFrom gap s) <+: gap ++ s := by
  fun_induction piecesFrom gap s with
  | case1 gap => exact List.nil_prefix
  | case2 gap c rest hcomment ih =>
    obtain ⟨rfl, hstar⟩ := hcomment
    obtain ⟨rest, rfl⟩ := List.head?_eq_some_iff.mp hstar
    simpa [closeComment_append] using ih
  | case3 gap c rest _ _ ih => simpa using ih
  | case4 gap c rest _ _ _ ih =>
    rw [render_cons, List.append_assoc]
    refine (List.prefix_append_right_inj gap).mpr ?_
    have h := (List.prefix_append_right_inj (c :: (closeString c rest).1)).mpr ih
    rwa [List.nil_append, List.cons_append, List.cons_append, closeString_append] at h
  | case5 gap c rest _ _ _ ih =>
    rw [render_cons, List.append_assoc]
    exact (List.prefix_append_right_inj gap).mpr ((List.prefix_append_right_inj [c]).mpr ih)

/-- A comment is read as a whole. -/
theorem closeComment_closeComment (s : List Char) :
    closeComment (closeComment s).1 = ((closeComment s).1, []) := by
  fun_induction closeComment s with
  | case1 => rfl
  | case2 => rfl
  | case3 c rest h ih =>
    have hhead : c = '*' → (closeComment rest).1.head? ≠ some '/' := by
      intro hc hslash
      obtain ⟨inner, hinner⟩ := List.head?_eq_some_iff.mp hslash
      have hrest := closeComment_append rest
      rw [hinner] at hrest
      exact h _ hc hrest.symm
    rw [closeComment_cons hhead, ih]

/-- Blanks and comments. -/
inductive IsCssGap : List Char → Prop where
  | nil : IsCssGap []
  | blank {gap : List Char} {c : Char} (h : IsCssGap gap) (hc : Text.isBlank c = true) :
    IsCssGap (gap ++ [c])
  | comment {gap inner : List Char} (h : IsCssGap gap) (hinner : closeComment inner = (inner, [])) :
    IsCssGap (gap ++ '/' :: '*' :: inner)

/-- Nothing is passed but blanks and comments. -/
theorem isCssGap_of_mem_piecesFrom {gap s : List Char} (h : IsCssGap gap) :
    ∀ p ∈ piecesFrom gap s, IsCssGap p.gap := by
  fun_induction piecesFrom gap s with
  | case1 gap => nofun
  | case2 gap c rest _ ih => exact ih (h.comment (closeComment_closeComment rest.tail))
  | case3 gap c rest _ hblank ih => exact ih (h.blank hblank)
  | case4 gap c rest _ _ _ ih => exact List.forall_mem_cons.mpr ⟨h, ih .nil⟩
  | case5 gap c rest _ _ _ ih => exact List.forall_mem_cons.mpr ⟨h, ih .nil⟩

example : pieces "a /* b */ 'c d'".toList
    = [⟨[], .char 'a'⟩, ⟨" /* b */ ".toList, .string "'c d'".toList⟩] := by cbv

/-! ## Tidy pieces

Items written next to each other can be read as something else: a slash and a star make a comment,
and a string without its end takes in what follows.  Nothing else can happen, and tidy pieces are
those where neither does. -/

/-- The items that are read from a text: a blank is no item, and a string begins with its quote and
does not go on after its end. -/
def CssItem.IsProper : CssItem → Prop
  | char c => Text.isBlank c = false ∧ isQuote c = false
  | string text => ∃ quote inner, isQuote quote = true ∧ text = quote :: inner ∧
      closeString quote inner = (inner, [])

/-- The items that something may come after: a string has its end. -/
def CssItem.IsClosed : CssItem → Prop
  | char _ => True
  | string text => ∃ quote inner, isQuote quote = true ∧ text = quote :: (inner ++ [quote]) ∧
      ∀ rest, closeString quote (inner ++ quote :: rest) = (inner ++ [quote], rest)

/-- A piece may come after another. -/
def CssPiece.Before (p q : CssPiece) : Prop :=
  p.item.IsClosed ∧ ¬(p.item = .char '/' ∧ q = ⟨[], .char '*'⟩)

/-- Pieces that stay apart. -/
structure Tidy (ps : List CssPiece) : Prop where
  proper : ∀ p ∈ ps, p.item.IsProper
  apart : ps.IsChain CssPiece.Before

theorem ne_of_isQuote {quote c : Char} (h : isQuote quote = true) (hc : isQuote c = false) :
    c ≠ quote :=
  fun heq => by rw [heq, h] at hc; cases hc

theorem closeString_quote {quote : Char} (h : isQuote quote = true) (rest : List Char) :
    closeString quote (quote :: rest) = ([quote], rest) := by
  rw [closeString.eq_3, if_pos rfl]
  rintro _ _ rfl -
  exact ne_of_isQuote h rfl rfl

theorem closeString_cons {quote c : Char} (hslash : c ≠ '\\') (hquote : c ≠ quote)
    (rest : List Char) : closeString quote (c :: rest)
      = (c :: (closeString quote rest).1, (closeString quote rest).2) := by
  rw [closeString.eq_3, if_neg hquote]
  exact fun _ _ h _ => hslash h

/-- A string ends with its quote, or the text ends with it. -/
theorem closeString_cases {quote : Char} (hquote : isQuote quote = true) (s : List Char) :
    (closeString quote s).2 = [] ∨ ∃ inner, (closeString quote s).1 = inner ++ [quote] ∧
      ∀ rest, closeString quote (inner ++ quote :: rest) = (inner ++ [quote], rest) := by
  fun_induction closeString quote s with
  | case1 => exact .inl rfl
  | case2 c rest ih =>
    refine ih.imp_right ?_
    rintro ⟨inner, heq, hclosed⟩
    refine ⟨'\\' :: c :: inner, by rw [heq]; rfl, fun r => ?_⟩
    rw [List.cons_append, List.cons_append, closeString, hclosed]
    rfl
  | case3 rest h => exact .inr ⟨[], rfl, closeString_quote hquote⟩
  | case4 c rest hslash hne ih =>
    rcases rest with _ | ⟨d, rest⟩
    · exact .inl rfl
    · have hc : c ≠ '\\' := fun hc => hslash d rest hc rfl
      refine ih.imp_right ?_
      rintro ⟨inner, heq, hclosed⟩
      refine ⟨c :: inner, by rw [heq]; rfl, fun r => ?_⟩
      rw [List.cons_append, closeString_cons hc hne, hclosed]
      rfl

theorem isProper_string {quote : Char} (hquote : isQuote quote = true) (s : List Char) :
    (CssItem.string (quote :: (closeString quote s).1)).IsProper := by
  refine ⟨quote, _, hquote, rfl, ?_⟩
  rcases closeString_cases hquote s with hnil | ⟨inner, heq, hclosed⟩
  · have hs := closeString_append quote s
    rw [hnil, List.append_nil] at hs
    exact Prod.ext (by rw [hs, hs]) (by rw [hs, hnil])
  · rw [heq, hclosed []]

theorem Tidy.nil : Tidy [] :=
  ⟨nofun, .nil⟩

theorem Tidy.cons {p : CssPiece} {ps : List CssPiece} (hp : p.item.IsProper) (hps : Tidy ps)
    (h : ∀ q ∈ ps.head?, p.Before q) : Tidy (p :: ps) :=
  ⟨List.forall_mem_cons.mpr ⟨hp, hps.proper⟩, List.isChain_cons.mpr ⟨h, hps.apart⟩⟩

/-- **What is read from a text is tidy.** -/
theorem tidy_piecesFrom (gap s : List Char) : Tidy (piecesFrom gap s) := by
  fun_induction piecesFrom gap s with
  | case1 gap => exact .nil
  | case2 gap c rest _ ih => exact ih
  | case3 gap c rest _ _ ih => exact ih
  | case4 gap c rest _ _ hquote ih =>
    refine .cons (isProper_string hquote rest) ih fun q hq => ⟨?_, nofun⟩
    rcases closeString_cases hquote rest with hnil | ⟨inner, heq, hclosed⟩
    · rw [hnil, piecesFrom_nil] at hq
      cases hq
    · exact ⟨c, inner, hquote, by rw [heq], hclosed⟩
  | case5 gap c rest hcomment hblank hquote ih =>
    refine .cons ⟨by simpa using hblank, by simpa using hquote⟩ ih fun q hq => ⟨trivial, ?_⟩
    rintro ⟨hc, rfl⟩
    -- an asterisk without a gap before it begins the rest of the text
    obtain ⟨qs, hqs⟩ := List.head?_eq_some_iff.mp hq
    obtain ⟨after, hafter⟩ := render_piecesFrom_prefix [] rest
    rw [hqs, List.nil_append] at hafter
    exact hcomment ⟨CssItem.char.inj hc, by rw [← hafter]; rfl⟩

/-! ## Reading pieces back

By induction on the pieces.  The head of what is still to be read is all that the reader sees of it,
and for a tidy piece the head is harmless. -/

theorem isBlank_of_isQuote {c : Char} (h : isQuote c = true) : Text.isBlank c = false := by
  rw [isQuote, Bool.or_eq_true, beq_iff_eq, beq_iff_eq] at h
  rcases h with rfl | rfl <;> decide

/-- An item is read where nothing that comes after it belongs to it. -/
theorem piecesFrom_item {item : CssItem} (hproper : item.IsProper) {s : List Char}
    (hclosed : s = [] ∨ item.IsClosed) (hcomment : item = .char '/' → s.head? ≠ some '*')
    (gap : List Char) : piecesFrom gap (item.text ++ s) = ⟨gap, item⟩ :: piecesFrom [] s := by
  cases item with
  | char c =>
    obtain ⟨hblank, hquote⟩ := hproper
    rw [CssItem.text, List.singleton_append, piecesFrom,
      if_neg (fun h => hcomment (congrArg CssItem.char h.1) h.2), if_neg (by simp [hblank]),
      if_neg (by simp [hquote])]
  | string text =>
    obtain ⟨quote, inner, hquote, rfl, hinner⟩ := hproper
    have hread : closeString quote (inner ++ s) = (inner, s) := by
      rcases hclosed with rfl | ⟨quote', inner', -, heq, hclosed⟩
      · rw [List.append_nil, hinner]
      · obtain ⟨rfl, rfl⟩ := List.cons.inj heq
        rw [List.append_assoc, List.singleton_append, hclosed]
    rw [CssItem.text, List.cons_append, piecesFrom,
      if_neg (fun h => ne_of_isQuote hquote (c := '/') rfl h.1.symm),
      if_neg (by simp [isBlank_of_isQuote hquote]), if_pos hquote, hread]

/-- What comes after a piece does not go on with it. -/
theorem Tidy.head?_render {p : CssPiece} {ps : List CssPiece} (h : Tidy (p :: ps))
    (hgap : ∀ q ∈ ps, q.gap = [] ∨ q.gap = [' ']) (hp : p.item = .char '/') :
    (render ps).head? ≠ some '*' := by
  rcases ps with _ | ⟨⟨gap, item⟩, ps⟩
  · nofun
  rw [render_cons]
  rcases hgap _ List.mem_cons_self with rfl | rfl
  · intro hhead
    refine (List.isChain_cons_cons.mp h.apart).1.2 ⟨hp, ?_⟩
    have hproper := h.proper _ (List.mem_cons_of_mem _ List.mem_cons_self)
    cases item with
    | char c => rw [Option.some.inj hhead]
    | string text =>
      obtain ⟨quote, inner, hquote, rfl, -⟩ := hproper
      rw [Option.some.inj hhead] at hquote
      cases hquote
  · simp

/-- **Tidy pieces with at most a space between them are read back as they are.** -/
theorem pieces_render {ps : List CssPiece} (h : Tidy ps)
    (hgap : ∀ p ∈ ps, p.gap = [] ∨ p.gap = [' ']) : pieces (render ps) = ps := by
  induction ps with
  | nil => exact piecesFrom_nil []
  | cons p ps ih =>
    obtain ⟨hp, hps⟩ := List.forall_mem_cons.mp hgap
    obtain ⟨hproper, hpropers⟩ := List.forall_mem_cons.mp h.proper
    obtain ⟨hbefore, hapart⟩ := List.isChain_cons.mp h.apart
    have hspace : ∀ s, piecesFrom [] (p.gap ++ s) = piecesFrom p.gap s := by
      intro s
      rcases hp with hp | hp
      · rw [hp, List.nil_append]
      · rw [hp, List.singleton_append, piecesFrom, if_neg (fun h => absurd h.1 (by decide)),
          if_pos (by decide), List.nil_append]
    have hclosed : render ps = [] ∨ p.item.IsClosed := by
      rcases ps with _ | ⟨q, ps⟩
      · exact .inl rfl
      · exact .inr (hbefore q rfl).1
    rw [render_cons, List.append_assoc, pieces, hspace,
      piecesFrom_item hproper hclosed (h.head?_render hps), ← pieces, ih ⟨hpropers, hapart⟩ hps]

/-! ## Final semicolons

The item after a semicolon decides whether it goes.  A semicolon that goes has its gap go with it,
so that the gap of the brace is the one that stays. -/

/-- The pieces without the semicolons that come directly before a closing brace. -/
def withoutFinal : List CssPiece → List CssPiece
  | [] => []
  | p :: ps =>
    if p.item = .char ';' ∧ ps.head?.map CssPiece.item = some (.char '}') then withoutFinal ps
    else p :: withoutFinal ps

/-- The first piece stays the first, unless it is a semicolon before a closing brace. -/
theorem head?_withoutFinal {ps : List CssPiece} {p : CssPiece}
    (h : p ∈ (withoutFinal ps).head?) : p ∈ ps.head? ∨ p.item = .char '}' := by
  induction ps with
  | nil => cases h
  | cons q ps ih =>
    rw [withoutFinal] at h
    split at h
    · next hfinal =>
      rcases ih h with hp | hp
      · rw [Option.mem_def.mp hp] at hfinal
        exact .inr (Option.some.inj hfinal.2)
      · exact .inr hp
    · exact .inl h

/-- Pieces stay tidy without semicolons before closing braces. -/
theorem Tidy.withoutFinal {ps : List CssPiece} (h : Tidy ps) : Tidy (withoutFinal ps) := by
  induction ps with
  | nil => exact .nil
  | cons p ps ih =>
    obtain ⟨hproper, hpropers⟩ := List.forall_mem_cons.mp h.proper
    obtain ⟨hbefore, hapart⟩ := List.isChain_cons.mp h.apart
    have hps : Tidy (Artifact.withoutFinal ps) := ih ⟨hpropers, hapart⟩
    rw [Artifact.withoutFinal]
    split
    · exact hps
    refine .cons hproper hps fun q hq => ?_
    rcases head?_withoutFinal hq with hhead | hbrace
    · exact hbefore q hhead
    · rcases ps with _ | ⟨r, ps⟩
      · cases hq
      · refine ⟨(hbefore r rfl).1, fun hcomment => ?_⟩
        rw [hcomment.2] at hbrace
        exact absurd hbrace (by decide)

/-! ## The end of the last string

The whole text is trimmed at the end, and where it ends within a string that is not closed, blanks
of the string are lost.  This is the only item that can change, and it is the last. -/

/-- A string without the blanks at its end. -/
def CssItem.trimEnd : CssItem → CssItem
  | char c => char c
  | string text => string (Text.trimEnd text)

/-- The pieces without the blanks at the end of the last. -/
def trimLast : List CssPiece → List CssPiece
  | [] => []
  | [p] => [⟨p.gap, p.item.trimEnd⟩]
  | p :: q :: ps => p :: trimLast (q :: ps)

/-- Only the last piece is trimmed. -/
theorem trimLast_concat (ps : List CssPiece) (p : CssPiece) :
    trimLast (ps ++ [p]) = ps ++ [⟨p.gap, p.item.trimEnd⟩] := by
  induction ps with
  | nil => rfl
  | cons q ps ih =>
    rcases ps with _ | ⟨r, ps⟩
    · rfl
    · rw [List.cons_append, List.cons_append, trimLast, ← List.cons_append, ih]
      rfl

theorem trimEnd_eq (s : List Char) : Text.trimEnd s = s.rdropWhile Text.isBlank :=
  Text.dropTrailing_eq Text.isBlank s

theorem trimEnd_cons {c : Char} (h : Text.isBlank c = false) (s : List Char) :
    Text.trimEnd (c :: s) = c :: Text.trimEnd s := by
  rw [Text.trimEnd, Text.dropTrailing, List.foldr_cons, h, Bool.and_false]
  rfl

theorem trimEnd_append {t : List Char} (h : Text.trimEnd t ≠ []) (s : List Char) :
    Text.trimEnd (s ++ t) = s ++ Text.trimEnd t := by
  rw [trimEnd_eq, List.rdropWhile, Ne, List.reverse_eq_nil_iff] at h
  rw [trimEnd_eq, trimEnd_eq, List.rdropWhile, List.rdropWhile, List.reverse_append,
    List.dropWhile_append, if_neg (by simpa using h), List.reverse_append, List.reverse_reverse]

theorem trimEnd_concat {c : Char} (h : Text.isBlank c = false) (s : List Char) :
    Text.trimEnd (s ++ [c]) = s ++ [c] := by
  rw [trimEnd_eq, List.rdropWhile_concat_neg _ _ _ (by simp [h])]

/-- Up to any place in it, a string is open. -/
theorem closeString_of_append {quote : Char} (hquote : isQuote quote = true) {s t : List Char}
    (h : closeString quote (s ++ t) = (s ++ t, [])) : closeString quote s = (s, []) := by
  fun_induction closeString quote s with
  | case1 => rfl
  | case2 c rest ih =>
    rw [List.cons_append, List.cons_append, closeString] at h
    rw [ih (by simpa [Prod.ext_iff] using h)]
  | case3 rest _ =>
    rw [List.cons_append, closeString_quote hquote, Prod.mk.injEq, List.append_eq_nil_iff] at h
    rw [h.2.1]
  | case4 c rest hslash hne ih =>
    by_cases hc : c = '\\'
    · rcases rest with _ | ⟨d, rest⟩
      · rfl
      · exact absurd rfl (hslash d rest hc)
    · rw [List.cons_append, closeString_cons hc hne] at h
      rw [ih (by simpa [Prod.ext_iff] using h)]

namespace CssItem

variable {item : CssItem}

/-- An item begins with no blank. -/
theorem IsProper.text_eq (h : item.IsProper) :
    ∃ c rest, item.text = c :: rest ∧ Text.isBlank c = false := by
  cases item with
  | char c => exact ⟨c, [], rfl, h.1⟩
  | string text =>
    obtain ⟨quote, inner, hquote, rfl, -⟩ := h
    exact ⟨quote, inner, rfl, isBlank_of_isQuote hquote⟩

theorem IsProper.trimEnd_text_ne_nil (h : item.IsProper) : Text.trimEnd item.text ≠ [] := by
  obtain ⟨c, rest, htext, hc⟩ := h.text_eq
  rw [htext, trimEnd_cons hc]
  nofun

theorem IsProper.text_trimEnd (h : item.IsProper) : item.trimEnd.text = Text.trimEnd item.text := by
  cases item with
  | char c => rw [trimEnd, text, trimEnd_cons h.1]; rfl
  | string text => rfl

/-- A string that has its end is kept as it is. -/
theorem IsClosed.trimEnd_eq (h : item.IsClosed) : item.trimEnd = item := by
  cases item with
  | char c => rfl
  | string text =>
    obtain ⟨quote, inner, hquote, rfl, -⟩ := h
    rw [trimEnd, ← List.cons_append, trimEnd_concat (isBlank_of_isQuote hquote)]

/-- A piece stays what it is when its end is trimmed. -/
theorem IsProper.trimEnd (h : item.IsProper) : item.trimEnd.IsProper := by
  cases item with
  | char c => exact h
  | string text =>
    obtain ⟨quote, inner, hquote, rfl, hinner⟩ := h
    refine ⟨quote, Text.trimEnd inner, hquote, trimEnd_cons (isBlank_of_isQuote hquote) inner, ?_⟩
    obtain ⟨blanks, hblanks⟩ := List.rdropWhile_prefix Text.isBlank inner
    rw [← Artifact.trimEnd_eq] at hblanks
    exact closeString_of_append hquote (by rw [hblanks, hinner])

@[simp] theorem isSeparator_trimEnd (item : CssItem) :
    item.trimEnd.isSeparator = item.isSeparator := by
  cases item <;> rfl

end CssItem

theorem trimLast_of_isClosed {ps : List CssPiece} (h : ∀ p ∈ ps.getLast?, p.item.IsClosed) :
    trimLast ps = ps := by
  rcases List.eq_nil_or_concat' ps with rfl | ⟨ps, p, rfl⟩
  · rfl
  · rw [trimLast_concat, (h p List.getLast?_concat).trimEnd_eq]

/-- Blanks at the end of a text are blanks at the end of its last piece. -/
theorem render_trimLast {ps : List CssPiece} (h : ∀ p ∈ ps, p.item.IsProper) :
    render (trimLast ps) = Text.trimEnd (render ps) := by
  rcases List.eq_nil_or_concat' ps with rfl | ⟨ps, p, rfl⟩
  · rfl
  have hp : p.item.IsProper := h p List.mem_concat_self
  rw [trimLast_concat, render_append, render_append, render_cons, render_cons, render_nil,
    List.append_nil, List.append_nil, ← List.append_assoc, ← List.append_assoc,
    trimEnd_append hp.trimEnd_text_ne_nil, hp.text_trimEnd]

/-- Pieces stay tidy when the last one is trimmed. -/
theorem Tidy.trimLast {ps : List CssPiece} (h : Tidy ps) : Tidy (trimLast ps) := by
  rcases List.eq_nil_or_concat' ps with rfl | ⟨ps, p, rfl⟩
  · exact h
  obtain ⟨hchain, -, hlast⟩ := List.isChain_append.mp h.apart
  rw [trimLast_concat]
  refine ⟨fun q hq => ?_, List.isChain_append.mpr ⟨hchain, .singleton _, fun q hq r hr => ?_⟩⟩
  · rcases List.mem_append.mp hq with hq | hq
    · exact h.proper q (List.mem_append_left _ hq)
    · obtain rfl := List.mem_singleton.mp hq
      exact (h.proper p List.mem_concat_self).trimEnd
  · obtain rfl := Option.some.inj hr
    obtain ⟨hclosed, hcomment⟩ := hlast q hq p rfl
    refine ⟨hclosed, fun ⟨hslash, hstar⟩ => hcomment ⟨hslash, ?_⟩⟩
    obtain ⟨gap, item⟩ := p
    cases item with
    | char c => exact hstar
    | string text => cases (CssPiece.mk.inj hstar).2

/-- Trimming the last piece changes nothing that is not the text of a string. -/
theorem map_trimLast {α : Type} {f : CssPiece → α}
    (hf : ∀ p : CssPiece, f ⟨p.gap, p.item.trimEnd⟩ = f p) (ps : List CssPiece) :
    (trimLast ps).map f = ps.map f := by
  rcases List.eq_nil_or_concat' ps with rfl | ⟨ps, p, rfl⟩
  · rfl
  · rw [trimLast_concat, List.map_append, List.map_append, List.map_singleton, List.map_singleton,
      hf]

end Artifact
end Frontispiece
