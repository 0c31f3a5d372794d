import Frontispiece.Proofs.Artifact.Css
import Mathlib.Data.List.Forall2

/-!
# Selectors in a compact stylesheet

What stands before the brace of a block is a selector, or the head of an at-rule.  Between two simple
selectors a blank is a combinator, and no blank makes one selector of them; a comment alone is no
blank.  This holds before the colon of a pseudo-class as well, so a blank before a colon may be lost
in declarations only, and which blocks hold declarations is told by `isGroupRule`.

## What is here

* `selectors` — the places of the selectors of a stylesheet, in the blocks that they stand in.
* `selectors_compactCss` — **the selectors of a compact stylesheet are those of the stylesheet**, with
  the gaps of their places.
* `hasBlank`, `separations` — which of the simple selectors are separated by blanks.
* `KeptApart` — the gaps that stay what they are.
* `compactCss_selectors` — the separations of a selector are kept if and only if all its gaps are such.
* `exists_descendant_lost` — a pseudo-class of a nested rule loses the blank before it.

Of a selector nothing changes but its gaps.  So the theorem is about which gaps lose their last
blank, and the answer is a condition on places: before the colon of a declaration a blank is
dropped, and a block that comes after anything but certain at-rules counts as one of declarations.
A selector inside of a style rule is taken for a declaration by this, and its blanks before a
pseudo-class go.
-/

set_option autoImplicit false

namespace Frontispiece
namespace Artifact

variable {place place' : CssPlace} {p q : CssPiece} {ps : List CssPiece} {declares : Bool}

/-! ## Selectors

A selector is what stands before the brace of a style rule, with its gaps.  It is cut out of the
pieces of a stylesheet, and the same cut of the compact stylesheet gives the compact selector. -/

/-- The places at the braces that open a block. -/
def selectorsFrom (place : CssPlace) : List CssPiece → List CssPlace
  | [] => []
  | p :: ps =>
    if p.item = .char '{' then place :: selectorsFrom (place.next p) ps
    else selectorsFrom (place.next p) ps

/-- The selectors of a stylesheet, where they stand.  The heads of at-rules count as selectors. -/
def selectors (css : List Char) : List CssPlace :=
  selectorsFrom .start (pieces css)

namespace CssPlace

/-- The items of a selector, and of those that its blocks belong to, innermost first. -/
def items (place : CssPlace) : List (List CssItem) :=
  (place.prelude :: place.within).map (List.map CssPiece.item)

/-- What stands before the braces of open blocks as it is written. -/
def compactWithin : List (List CssPiece) → List (List CssPiece)
  | [] => []
  | prelude :: within => compactPrelude ⟨within, prelude⟩ :: compactWithin within

/-- The place in what is written. -/
def compact (place : CssPlace) : CssPlace :=
  ⟨compactWithin place.within, place.compactPrelude⟩

theorem compactWithin_tail : ∀ within : List (List CssPiece),
    compactWithin within.tail = (compactWithin within).tail
  | [] => rfl
  | _ :: _ => rfl

theorem items_compactWithin : ∀ within : List (List CssPiece),
    (compactWithin within).map (List.map CssPiece.item) = within.map (List.map CssPiece.item)
  | [] => rfl
  | prelude :: within => by
    rw [compactWithin, List.map_cons, items_compactWithin within, List.map_cons, compactPrelude,
      map_item_spread]

theorem items_compact (place : CssPlace) : place.compact.items = place.items := by
  rw [items, compact, List.map_cons, items_compactWithin, compactPrelude, map_item_spread]
  rfl

/-- A piece is written where it stands. -/
theorem compact_next (place : CssPlace) (p : CssPiece) :
    (place.next p).compact = place.compact.next ⟨place.gapBefore p, p.item⟩ := by
  by_cases hopen : p.item = .char '{'
  · rw [next, next, if_pos hopen, if_pos hopen]
    rfl
  by_cases hclose : p.item = .char '}'
  · rw [next, next, if_neg hopen, if_neg hopen, if_pos hclose, if_pos hclose]
    exact congrArg (CssPlace.mk · []) (compactWithin_tail place.within)
  by_cases hsemicolon : p.item = .char ';'
  · rw [next, next, if_neg hopen, if_neg hopen, if_neg hclose, if_neg hclose, if_pos hsemicolon,
      if_pos hsemicolon]
    rfl
  · have hnext : place.compact.next ⟨place.gapBefore p, p.item⟩ = _ :=
      next_of_not_bracket hopen hclose hsemicolon
    rw [next_of_not_bracket hopen hclose hsemicolon, hnext, compact, compactPrelude_concat]
    rfl

end CssPlace

/-- A brace that closes a block forgets what came before it in the block. -/
theorem selectorsFrom_close (hp : p.item = .char '}') (h : place.within = place'.within)
    (ps : List CssPiece) : selectorsFrom place (p :: ps) = selectorsFrom place' (p :: ps) := by
  have hopen : p.item ≠ .char '{' := by rw [hp]; decide
  have hnext : place.next p = place'.next p := by
    rw [CssPlace.next, CssPlace.next, if_neg hopen, if_neg hopen, if_pos hp, if_pos hp, h]
  rw [selectorsFrom, selectorsFrom, if_neg hopen, if_neg hopen, hnext]

/-- The selectors of the compact text are those of the text, each made compact. -/
theorem selectorsFrom_compacted (place : CssPlace) (ps : List CssPiece) :
    selectorsFrom place.compact (compacted (gapped place ps))
      = (selectorsFrom place ps).map CssPlace.compact := by
  induction ps generalizing place with
  | nil => rfl
  | cons p ps ih =>
    rw [gapped, selectorsFrom]
    split
    · next hfinal =>
      -- the semicolon is not written, so the place in what is written lags behind up to the brace
      obtain ⟨hsemicolon, hbrace⟩ := hfinal
      obtain ⟨q, hq, hclose⟩ := Option.map_eq_some_iff.mp hbrace
      obtain ⟨rest, rfl⟩ := List.head?_eq_some_iff.mp hq
      have hwithin : place.compact.within = (place.next p).compact.within := by
        rw [CssPlace.next, hsemicolon]
        rfl
      have hgapped : gapped (place.next p) (q :: rest) =
          (q, (place.next p).gapBefore q) :: gapped ((place.next p).next q) rest :=
        if_neg fun hq => by rw [hclose] at hq; cases hq.1
      rw [if_neg (by rw [hsemicolon]; decide), ← ih, hgapped, compacted_cons]
      exact selectorsFrom_close (p := ⟨(place.next p).gapBefore q, q.item⟩) hclose hwithin _
    · rw [compacted_cons, selectorsFrom, ← CssPlace.compact_next, ih]
      split
      · rfl
      · rfl

/-- The last piece may be trimmed: if it is a string, it opens no block. -/
theorem selectorsFrom_trimLast (place : CssPlace) : ∀ ps : List CssPiece,
    selectorsFrom place (trimLast ps) = selectorsFrom place ps
  | [] => rfl
  | [⟨gap, .char c⟩] => rfl
  | [⟨gap, .string text⟩] => rfl
  | p :: q :: ps => by
    rw [trimLast, selectorsFrom, selectorsFrom, selectorsFrom_trimLast _ (q :: ps)]

/-- **The selectors of a compact stylesheet are those of the stylesheet**, with the gaps of their
places. -/
theorem selectors_compactCss (css : List Char) :
    selectors (compactCss css) = (selectors css).map CssPlace.compact := by
  rw [selectors, pieces_compactCss, selectorsFrom_trimLast]
  exact selectorsFrom_compacted .start (pieces css)

/-! ## Separations

A blank between two parts of a selector means descent, unless another sign of relation stands beside
it.  A separation is such a blank, and `KeptApart` the condition under which it stays. -/

/-- Whether a gap has a blank, outside of its comments. -/
def hasBlank : List Char → Bool
  | [] => false
  | c :: rest =>
    if c = '/' ∧ rest.head? = some '*' then hasBlank (closeComment rest.tail).2
    else Text.isBlank c || hasBlank rest
  termination_by gap => gap.length
  decreasing_by
    · have hlength := closeComment_length rest.tail
      rw [List.length_tail] at hlength
      exact Nat.lt_succ_of_le (hlength.trans (Nat.sub_le _ _))
    · exact Nat.lt_succ_self _

/-- Whether a blank between two pieces of a selector counts: beside a comma or a child combinator it
does not, nor after a colon, but before the colon of a pseudo-class it does. -/
def meets (p q : CssPiece) : Bool :=
  !p.item.isSeparator && (!q.item.isSeparator || q.item == .char ':')

/-- For each two neighbours of a selector between which a blank counts, whether there is one. -/
def separations : List CssPiece → List Bool
  | p :: q :: ps =>
    if meets p q then hasBlank q.gap :: separations (q :: ps) else separations (q :: ps)
  | _ => []

/-- The gap between these pieces stays what it is: before the colon of what counts as a declaration it
has no blank, and elsewhere it has one unless it is empty. -/
def KeptApart (declares : Bool) (p q : CssPiece) : Prop :=
  meets p q = true →
    if q.item = .char ':' ∧ declares = true then hasBlank q.gap = false
    else q.gap = [] ∨ hasBlank q.gap = true

theorem hasBlank_oneSpace (gap : List Char) : hasBlank (oneSpace gap) = !gap.isEmpty := by
  rw [oneSpace]
  cases gap with
  | nil => rw [if_pos rfl, hasBlank]; rfl
  | cons c gap => rw [if_neg (by simp)]; simp [hasBlank, Text.isBlank]

/-- Where two pieces meet, only the colons of declarations lose the gap before them. -/
theorem isTight_iff_of_meets (h : meets p q = true) :
    isTight declares q = true ↔ q.item = .char ':' ∧ declares = true := by
  obtain ⟨-, hq⟩ := Bool.and_eq_true_iff.mp h
  constructor
  · intro htight
    obtain ⟨hseparator, hcolon⟩ := Bool.and_eq_true_iff.mp htight
    have hitem : q.item = .char ':' := by simpa [hseparator] using hq
    exact ⟨hitem, by simpa [hitem] using hcolon⟩
  · rintro ⟨hitem, rfl⟩
    exact isTight_of_separator (by rw [hitem]; rfl) fun _ => rfl

/-- A gap between two parts of a selector stays exactly if the two are kept apart. -/
theorem hasBlank_gapAfter (h : meets p q = true) :
    hasBlank (gapAfter declares (some p) q) = hasBlank q.gap ↔ KeptApart declares p q := by
  have hp : p.item.isSeparator = false := by simpa using (Bool.and_eq_true_iff.mp h).1
  rw [KeptApart, imp_iff_right h]
  by_cases htight : isTight declares q = true
  · rw [if_pos ((isTight_iff_of_meets h).mp htight), gapAfter_tight htight, hasBlank]
    exact eq_comm
  · rw [if_neg (mt (isTight_iff_of_meets h).mpr htight),
      gapAfter_some hp (Bool.eq_false_iff.mpr htight), hasBlank_oneSpace]
    cases q.gap with
    | nil => simp [hasBlank]
    | cons c gap =>
      rw [or_iff_right (List.cons_ne_nil c gap)]
      exact eq_comm

/-- By induction on the selector: the gap of a piece depends on its item and the one before it. -/
theorem separations_spread (p : CssPiece) (gap : List Char) (ps : List CssPiece) :
    separations (⟨gap, p.item⟩ :: spread declares (some p) ps) = separations (p :: ps) ↔
      (p :: ps).IsChain (KeptApart declares) := by
  induction ps generalizing p gap with
  | nil => exact ⟨fun _ => .singleton p, fun _ => rfl⟩
  | cons q ps ih =>
    have hmeets : meets ⟨gap, p.item⟩ ⟨gapAfter declares (some p) q, q.item⟩ = meets p q := rfl
    rw [spread, separations, separations, hmeets, List.isChain_cons_cons]
    by_cases h : meets p q = true
    · rw [if_pos h, if_pos h, List.cons.injEq, ih, hasBlank_gapAfter h]
    · have hkept : KeptApart declares p q := fun hmeets => absurd hmeets h
      rw [if_neg h, if_neg h, ih]
      exact (and_iff_right hkept).symm

theorem separations_compactPrelude (place : CssPlace) :
    separations place.compactPrelude = separations place.prelude ↔
      place.prelude.IsChain (KeptApart place.declares) := by
  obtain ⟨within, prelude⟩ := place
  cases prelude with
  | nil => exact ⟨fun _ => .nil, fun _ => rfl⟩
  | cons p ps => exact separations_spread p _ ps

/-- **Which selectors match what they matched.**

* A compact stylesheet has the selectors of the stylesheet, in the same order and in the same blocks,
  with the same items.
* The simple selectors of a selector are separated by blanks as they were if and only if all gaps
  between them stay what they are.  Comments without a blank become one, and a blank before a
  pseudo-class is lost in a block that counts as one of declarations, which is a block after anything
  but the lower case name of a rule of a group. -/
theorem compactCss_selectors (css : List Char) : List.Forall₂
    (fun sel sel' => sel'.items = sel.items ∧
      (separations sel'.prelude = separations sel.prelude ↔
        sel.prelude.IsChain (KeptApart sel.declares)))
    (selectors css) (selectors (compactCss css)) := by
  rw [selectors_compactCss, List.forall₂_map_right_iff, List.forall₂_same]
  exact fun sel _ => ⟨sel.items_compact, separations_compactPrelude sel⟩

/-- A rule in a rule, with a pseudo-class after a blank. -/
def nestedHover : List Char :=
  ".card\x7b.a :hover\x7bfill:red\x7d\x7d".toList

/-- A blank before a pseudo-class in a nested rule is lost, and with it the step to a descendant. -/
theorem exists_descendant_lost :
    (selectors (compactCss nestedHover)).map (fun sel => separations sel.prelude)
      ≠ (selectors nestedHover).map fun sel => separations sel.prelude := by
  have hbefore : (selectors nestedHover).map (fun sel => separations sel.prelude)
      = [[false, false, false, false], [false, true, false, false, false, false]] := by decide +kernel
  have hafter : (selectors (compactCss nestedHover)).map (fun sel => separations sel.prelude)
      = [[false, false, false, false], [false, false, false, false, false, false]] := by decide +kernel
  rw [hbefore, hafter]
  decide

end Artifact
end Frontispiece
