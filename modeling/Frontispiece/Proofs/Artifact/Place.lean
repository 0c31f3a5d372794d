import Frontispiece.Proofs.Artifact.Skeleton

/-!
# Where a piece of a stylesheet stands

Which gap a piece of a compact stylesheet has depends on where it stands: after which piece, and in
which block.  A block counts as one of rules or as one of declarations by the pieces before its
brace.  The place of a piece is known by the pieces before it, whatever they are; a brace that
nothing opened closes nothing.

## What is here

* `CssPlace`, `CssPlace.next` — the open blocks and the pieces since the last brace or semicolon.
* `isGroupRule`, `CssPlace.declares` — which blocks hold declarations.
* `gapAfter`, `spread` — the gap of a piece in a compact stylesheet, and all gaps of a run of pieces
  that has no brace and no semicolon.  `holdsRules_render` says that such a run is written so that
  its block is known by it.
* `gapped` — the pieces that are written, each with its gap.  `map_fst_gapped` and `spacing_gapped`
  say which pieces and which gaps these are.

A place is the smallest thing that settles how a gap is written, and it can be carried along: it
changes with each piece, and nothing of the pieces before the last brace or semicolon is needed any
more, except what blocks are open.  Of an open block in turn only the prelude is kept, since its
first word says whether it holds rules.
-/

set_option autoImplicit false

namespace Frontispiece
namespace Artifact

variable {p q : CssPiece} {ps : List CssPiece} {c : Char}

/-! ## Places

A colon and a blank mean different things in a selector and in a declaration.  A place is what has
to be known to tell them apart: the open blocks, and the pieces since the last brace or semicolon.
-/

/-- Where a piece stands. -/
structure CssPlace where
  /-- What stands before the braces of the open blocks, innermost first. -/
  within : List (List CssPiece)
  /-- The pieces since the last brace or semicolon. -/
  prelude : List CssPiece

namespace CssPlace

/-- The start of a stylesheet. -/
def start : CssPlace := ⟨[], []⟩

/-- The place after a piece. -/
def next (place : CssPlace) (p : CssPiece) : CssPlace :=
  if p.item = .char '{' then ⟨place.prelude :: place.within, []⟩
  else if p.item = .char '}' then ⟨place.within.tail, []⟩
  else if p.item = .char ';' then ⟨place.within, []⟩
  else ⟨place.within, place.prelude ++ [p]⟩

end CssPlace

/-- Whether pieces go on with a word, without a gap. -/
def goesOn : List Char → List CssPiece → Bool
  | [], _ => true
  | _ :: _, [] => false
  | c :: word, p :: ps => p == ⟨[], .char c⟩ && goesOn word ps

/-- Whether pieces begin with a word, whatever gap is before it. -/
def beginsWith (word : List Char) : List CssPiece → Bool
  | [] => word.isEmpty
  | p :: ps => goesOn word (⟨[], p.item⟩ :: ps)

/-- Whether these pieces stand before the brace of a block of rules. -/
def isGroupRule (prelude : List CssPiece) : Bool :=
  groupRules.any fun rule => beginsWith rule.toList prelude

/-- Whether the innermost block that is open counts as one of declarations. -/
def CssPlace.declares (place : CssPlace) : Bool :=
  place.within.head?.any fun prelude => !isGroupRule prelude

/-! ## Gaps

What becomes of a gap depends on the piece after it, the piece before it and the place.  It is
closed beside separators, where a colon after it counts as one in a declaration only, and at the
start of a block or a declaration; everywhere else one space is left of it. -/

/-- A gap as it is written where it matters. -/
def oneSpace (gap : List Char) : List Char :=
  if gap = [] then [] else [' ']

theorem oneSpace_eq_nil {gap : List Char} : oneSpace gap = [] ↔ gap = [] := by
  rw [oneSpace]
  split
  · next h => exact ⟨fun _ => h, fun _ => rfl⟩
  · next h => exact ⟨nofun, fun hnil => absurd hnil h⟩

/-- Whether a piece needs no space before it: it is a separator, and if it is a colon, it stands in a
block of declarations. -/
def isTight (declares : Bool) (p : CssPiece) : Bool :=
  p.item.isSeparator && (declares || p.item != .char ':')

/-- The gap that is written before a piece, where `last` is the piece before it since the last brace
or semicolon. -/
def gapAfter (declares : Bool) (last : Option CssPiece) (p : CssPiece) : List Char :=
  if isTight declares p || last.all fun q => q.item.isSeparator then [] else oneSpace p.gap

/-- The gap that is written before a piece. -/
def CssPlace.gapBefore (place : CssPlace) (p : CssPiece) : List Char :=
  gapAfter place.declares place.prelude.getLast? p

/-- The pieces of a run without braces and semicolons as they are written. -/
def spread (declares : Bool) (last : Option CssPiece) : List CssPiece → List CssPiece
  | [] => []
  | p :: ps => ⟨gapAfter declares last p, p.item⟩ :: spread declares (some p) ps

theorem map_item_spread (declares : Bool) : ∀ (last : Option CssPiece) (ps : List CssPiece),
    (spread declares last ps).map CssPiece.item = ps.map CssPiece.item
  | _, [] => rfl
  | _, p :: ps => by rw [spread, List.map_cons, map_item_spread declares _ ps, List.map_cons]

/-- The pieces since the last brace or semicolon as they are written. -/
def CssPlace.compactPrelude (place : CssPlace) : List CssPiece :=
  spread place.declares none place.prelude

/-- The pieces that are written, each with the gap that is written before it.  A semicolon directly
before a closing brace is not among them. -/
def gapped (place : CssPlace) : List CssPiece → List (CssPiece × List Char)
  | [] => []
  | p :: ps =>
    if p.item = .char ';' ∧ ps.head?.map CssPiece.item = some (.char '}') then
      gapped (place.next p) ps
    else (p, place.gapBefore p) :: gapped (place.next p) ps

/-- The pieces that are written, with the gaps before them. -/
def compacted (es : List (CssPiece × List Char)) : List CssPiece :=
  es.map fun e => ⟨e.2, e.1.item⟩

theorem compacted_cons (e : CssPiece × List Char) (es : List (CssPiece × List Char)) :
    compacted (e :: es) = ⟨e.2, e.1.item⟩ :: compacted es := rfl

theorem compacted_concat (es : List (CssPiece × List Char)) (e : CssPiece × List Char) :
    compacted (es ++ [e]) = compacted es ++ [⟨e.2, e.1.item⟩] :=
  List.map_append

theorem gapAfter_cases (declares : Bool) (last : Option CssPiece) (p : CssPiece) :
    gapAfter declares last p = [] ∨ gapAfter declares last p = [' '] := by
  rw [gapAfter, oneSpace]
  split
  · exact .inl rfl
  split
  · exact .inl rfl
  · exact .inr rfl

theorem gapAfter_none (declares : Bool) (p : CssPiece) : gapAfter declares none p = [] := by
  rw [gapAfter, Option.all_none, Bool.or_true]
  rfl

theorem gapAfter_tight {declares : Bool} (h : isTight declares p = true)
    (last : Option CssPiece) : gapAfter declares last p = [] := by
  rw [gapAfter, h]
  rfl

theorem isTight_of_separator {declares : Bool} (h : p.item.isSeparator = true)
    (hcolon : p.item = .char ':' → declares = true) : isTight declares p = true := by
  rw [isTight, h, Bool.true_and, Bool.or_eq_true, bne_iff_ne]
  by_cases hp : p.item = .char ':'
  · exact .inl (hcolon hp)
  · exact .inr hp

theorem isTight_of_not_separator {declares : Bool} (h : p.item.isSeparator = false) :
    isTight declares p = false := by
  rw [isTight, h, Bool.false_and]

/-- Between two items that are no separators a space is written where something was passed. -/
theorem gapAfter_some {declares : Bool} (hq : q.item.isSeparator = false)
    (hp : isTight declares p = false) : gapAfter declares (some q) p = oneSpace p.gap := by
  rw [gapAfter, hp, Option.all_some, hq]
  rfl

/-- Nothing is written before a separator that is no colon. -/
theorem gapBefore_separator (place : CssPlace) (hp : p.item = .char c)
    (hc : isCssSeparator c = true) (hcolon : c ≠ ':') : place.gapBefore p = [] := by
  refine gapAfter_tight (isTight_of_separator (hp ▸ hc) fun heq => ?_) _
  exact absurd (CssItem.char.inj (hp.symm.trans heq)) hcolon

/-- The gap of the last piece depends on the piece before it and on no other. -/
theorem spread_concat (declares : Bool) (p : CssPiece) : ∀ (last : Option CssPiece)
    (ps : List CssPiece), spread declares last (ps ++ [p])
      = spread declares last ps ++ [⟨gapAfter declares (ps.getLast?.or last) p, p.item⟩]
  | last, [] => by rw [List.getLast?_nil, Option.none_or]; rfl
  | last, q :: ps => by
    have hlast : (q :: ps).getLast?.or last = ps.getLast?.or (some q) := by
      rw [List.getLast?_cons, Option.some_or]
      cases ps.getLast? <;> rfl
    rw [List.cons_append, spread, spread_concat declares p (some q) ps, hlast]
    rfl

theorem CssPlace.next_of_not_bracket {place : CssPlace} (hopen : p.item ≠ .char '{')
    (hclose : p.item ≠ .char '}') (hsemicolon : p.item ≠ .char ';') :
    place.next p = ⟨place.within, place.prelude ++ [p]⟩ := by
  rw [next, if_neg hopen, if_neg hclose, if_neg hsemicolon]

theorem CssPlace.next_of_not_separator {place : CssPlace} (h : p.item.isSeparator = false) :
    place.next p = ⟨place.within, place.prelude ++ [p]⟩ := by
  have hother {c : Char} (hc : isCssSeparator c = true) : p.item ≠ .char c := by
    intro heq
    rw [heq, CssItem.isSeparator, hc] at h
    cases h
  exact next_of_not_bracket (hother rfl) (hother rfl) (hother rfl)

theorem CssPlace.compactPrelude_concat (place : CssPlace) (p : CssPiece) :
    CssPlace.compactPrelude ⟨place.within, place.prelude ++ [p]⟩
      = place.compactPrelude ++ [⟨place.gapBefore p, p.item⟩] := by
  rw [compactPrelude, spread_concat, Option.or_none]
  rfl

/-! ## Words

Whether a block holds rules is read off the word that its prelude starts with.  The word is the same
whichever gaps are written, which makes the places of a stylesheet and of its compact form agree. -/

theorem startsWith_cons_self (c : Char) (word s : List Char) :
    Text.startsWith (c :: word) (c :: s) = Text.startsWith word s := by
  rw [Text.startsWith, Text.dropLead?, if_pos (beq_self_eq_true c), Text.startsWith]

theorem startsWith_of_head?_ne {word s : List Char} (h : s.head? ≠ some c) :
    Text.startsWith (c :: word) s = false := by
  rcases s with _ | ⟨d, s⟩
  · rfl
  · have hne : ¬(c == d) = true := fun heq => h (congrArg some (beq_iff_eq.mp heq).symm)
    rw [Text.startsWith, Text.dropLead?, if_neg hne]
    rfl

/-- A letter is written first where it is the first piece and nothing was passed before it. -/
theorem head?_render_spread {declares : Bool} {q : CssPiece} (hq : q.item.isSeparator = false)
    (hproper : p.item.IsProper) (hc : CssItem.IsProper (.char c)) (hsep : isCssSeparator c = false)
    (h : p ≠ ⟨[], .char c⟩) :
    (render (spread declares (some q) (p :: ps))).head? ≠ some c := by
  rw [spread, render_cons]
  rcases hgap : gapAfter declares (some q) p with _ | ⟨d, gap⟩
  · obtain ⟨g, item⟩ := p
    cases item with
    | char d =>
      intro hd
      obtain rfl := Option.some.inj hd
      have htight : isTight declares ⟨g, .char d⟩ = false := isTight_of_not_separator hsep
      rw [gapAfter_some hq htight, oneSpace_eq_nil] at hgap
      exact h (congrArg (CssPiece.mk · _) hgap)
    | string text =>
      obtain ⟨quote, inner, hquote, rfl, -⟩ := hproper
      exact fun hd => ne_of_isQuote hquote hc.2 (Option.some.inj hd).symm
  · intro hd
    obtain rfl := Option.some.inj hd
    rcases gapAfter_cases declares (some q) p with hnil | hspace
    · rw [hnil] at hgap
      cases hgap
    · rw [hspace] at hgap
      obtain ⟨rfl, -⟩ := List.cons.inj hgap
      cases hc.1

/-- After a letter, a word is written where its letters follow without a gap. -/
theorem startsWith_render_spread {declares : Bool} {word : List Char}
    (hword : ∀ c ∈ word, CssItem.IsProper (.char c) ∧ isCssSeparator c = false)
    (hproper : ∀ p ∈ ps, p.item.IsProper) {q : CssPiece} (hq : q.item.isSeparator = false) :
    Text.startsWith word (render (spread declares (some q) ps)) = goesOn word ps := by
  induction word generalizing ps q with
  | nil => rfl
  | cons c word ih =>
    obtain ⟨⟨hc, hsep⟩, hword⟩ := List.forall_mem_cons.mp hword
    rcases ps with _ | ⟨p, ps⟩
    · rfl
    obtain ⟨hp, hps⟩ := List.forall_mem_cons.mp hproper
    rw [goesOn]
    by_cases hhead : p = ⟨[], .char c⟩
    · have htight : isTight declares ⟨[], .char c⟩ = false := isTight_of_not_separator hsep
      rw [hhead, beq_self_eq_true, Bool.true_and, spread, gapAfter_some hq htight, render_cons]
      exact (startsWith_cons_self c word _).trans (ih hword hps hsep)
    · rw [beq_eq_false_iff_ne.mpr hhead, Bool.false_and]
      exact startsWith_of_head?_ne (head?_render_spread hq hp hc hsep hhead)

/-- The first piece is written as if it came after a letter without a gap. -/
theorem spread_none (declares : Bool) (q p : CssPiece) (ps : List CssPiece) :
    spread declares none (p :: ps) = spread declares (some q) (⟨[], p.item⟩ :: ps) := by
  have hgap : gapAfter declares (some q) ⟨[], p.item⟩ = [] := by
    rw [gapAfter, oneSpace, if_pos rfl, ite_self]
  rw [spread, spread, gapAfter_none, hgap]
  cases ps <;> rfl

theorem isProper_of_mem_groupRules {rule : String} (hrule : rule ∈ groupRules)
    (hc : c ∈ rule.toList) : CssItem.IsProper (.char c) ∧ isCssSeparator c = false := by
  have hall : groupRules.all (fun rule => rule.toList.all fun c =>
      !Text.isBlank c && !isQuote c && !isCssSeparator c) = true := by decide
  have hone := List.all_eq_true.mp (List.all_eq_true.mp hall rule hrule) c hc
  simpa [CssItem.IsProper] using hone

/-- Whether a block holds rules is seen from its written prelude as from its pieces. -/
theorem holdsRules_render {prelude : List CssPiece} (declares : Bool)
    (hproper : ∀ p ∈ prelude, p.item.IsProper) :
    holdsRules (render (spread declares none prelude)) = isGroupRule prelude := by
  rw [holdsRules, isGroupRule]
  rcases prelude with _ | ⟨p, ps⟩
  · rfl
  obtain ⟨hp, hps⟩ := List.forall_mem_cons.mp hproper
  have htrim : Text.trimStart (render (spread declares none (p :: ps)))
      = render (spread declares none (p :: ps)) := by
    obtain ⟨c, rest, htext, hc⟩ := hp.text_eq
    rw [spread, gapAfter_none, render_cons, List.nil_append, htext, List.cons_append,
      Text.trimStart, List.dropWhile_cons_of_neg (by simp [hc])]
  rw [htrim, spread_none declares ⟨[], .char '@'⟩, Bool.eq_iff_iff, List.any_eq_true,
    List.any_eq_true]
  refine exists_congr fun rule => and_congr_right fun hrule => Eq.congr_left ?_
  have hword : ∀ p' ∈ ⟨[], p.item⟩ :: ps, p'.item.IsProper := List.forall_mem_cons.mpr ⟨hp, hps⟩
  exact startsWith_render_spread (fun c hc => isProper_of_mem_groupRules hrule hc) hword rfl

/-! ## Pieces with their gaps

All pieces with the gaps that are written for them, in one list.  `Spacing` is what later proofs use
of it, so that they need not know how a gap is chosen. -/

theorem map_fst_gapped : ∀ (place : CssPlace) (ps : List CssPiece),
    (gapped place ps).map Prod.fst = withoutFinal ps
  | _, [] => rfl
  | place, p :: ps => by
    rw [gapped, withoutFinal]
    split
    · exact map_fst_gapped _ ps
    · rw [List.map_cons, map_fst_gapped _ ps]

/-- The gaps that are written: at most a space, no space at the start, and between items that are
no separators a space where something was passed. -/
structure Spacing (es : List (CssPiece × List Char)) : Prop where
  gaps : ∀ e ∈ es, e.2 = [] ∨ e.2 = [' ']
  first : ∀ e ∈ es.head?, e.2 = []
  between : es.IsChain fun d e =>
    d.1.item.isSeparator = false → e.1.item.isSeparator = false → e.2 = oneSpace e.1.gap

/-- A gap is one space or nothing. -/
theorem gaps_gapped : ∀ (place : CssPlace) (ps : List CssPiece),
    ∀ e ∈ gapped place ps, e.2 = [] ∨ e.2 = [' ']
  | _, [], e, he => by cases he
  | place, p :: ps, e, he => by
    rw [gapped] at he
    split at he
    · exact gaps_gapped _ ps e he
    rcases List.mem_cons.mp he with rfl | he
    · exact gapAfter_cases _ _ p
    · exact gaps_gapped _ ps e he

/-- The first of the pieces with gaps is the first piece, or a closing brace after a semicolon. -/
theorem head?_gapped {place : CssPlace} {e : CssPiece × List Char}
    (h : e ∈ (gapped place ps).head?) :
    (∃ p ∈ ps.head?, e = (p, place.gapBefore p)) ∨ e.1.item = .char '}' := by
  induction ps generalizing place with
  | nil => cases h
  | cons p ps ih =>
    rw [gapped] at h
    split at h
    · next hfinal =>
      rcases ih h with ⟨q, hq, rfl⟩ | hbrace
      · rw [Option.mem_def.mp hq] at hfinal
        exact .inr (Option.some.inj hfinal.2)
      · exact .inr hbrace
    · exact .inl ⟨p, rfl, (Option.some.inj h).symm⟩

/-- There is no gap at the start of a prelude. -/
theorem head?_snd_gapped {place : CssPlace} (hprelude : place.prelude = [])
    {e : CssPiece × List Char} (h : e ∈ (gapped place ps).head?) : e.2 = [] := by
  induction ps generalizing place with
  | nil => cases h
  | cons p ps ih =>
    rw [gapped] at h
    split at h
    · next hfinal =>
      refine ih ?_ h
      rw [CssPlace.next, hfinal.1]
      rfl
    · obtain rfl := Option.some.inj h
      rw [CssPlace.gapBefore, hprelude]
      exact gapAfter_none _ p

/-- Between two pieces that are no separators, a gap stays a gap. -/
theorem between_gapped : ∀ (place : CssPlace) (ps : List CssPiece),
    (gapped place ps).IsChain fun d e =>
      d.1.item.isSeparator = false → e.1.item.isSeparator = false → e.2 = oneSpace e.1.gap
  | _, [] => .nil
  | place, p :: ps => by
    rw [gapped]
    split
    · exact between_gapped _ ps
    refine List.isChain_cons.mpr ⟨fun e he hp hsep => ?_, between_gapped _ ps⟩
    rcases head?_gapped he with ⟨q, -, rfl⟩ | hbrace
    · rw [CssPlace.next_of_not_separator hp, CssPlace.gapBefore, List.getLast?_concat]
      exact gapAfter_some hp (isTight_of_not_separator hsep)
    · rw [hbrace] at hsep
      cases hsep

theorem spacing_gapped (ps : List CssPiece) : Spacing (gapped .start ps) :=
  ⟨gaps_gapped _ ps, fun _ he => head?_snd_gapped rfl he, between_gapped _ ps⟩

end Artifact
end Frontispiece
