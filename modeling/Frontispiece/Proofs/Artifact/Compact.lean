import Frontispiece.Proofs.Artifact.Css

/-!
# Compact stylesheets made compact again

A compact stylesheet is read back as pieces that have the gaps of their places, so making it compact
again leaves the gaps as they are.  What may change is the semicolons: one is taken away before each
closing brace, and where there were two, the other now stands there.

## What is here

* `Placed` — pieces that have the gaps of their places.  `Placed.compacted_gapped` says that these
  are kept, when no semicolon is to be taken away.
* `placed_compacted` — what is written is placed, because each block is known by its prelude in
  either form (`isGroupRule_spread`).
* `withoutFinal_withoutFinal_iff` — when taking away final semicolons leaves some.
* `compactCss_compactCss_iff` — **a compact stylesheet stays as it is unless two semicolons stood
  before a closing brace**.

The proof of the last theorem goes through the pieces, not through the text.  What one pass writes
is read back piece by piece, so a second pass differs from the first in two ways at most: it may
write another gap, or drop another semicolon.  `placed_compacted` rules out the first.  The second
is counted: a pass drops the semicolon before a brace and looks no further back, so of two of them
one is left, and the next pass takes that one.
-/

set_option autoImplicit false

namespace Frontispiece
namespace Artifact

variable {place here there : CssPlace} {p : CssPiece} {ps qs : List CssPiece}

/-! ## Final semicolons

A second pass could find a semicolon before a brace only where the first took one away and uncovered
another.  So two of them in a row are what makes a difference. -/

theorem withoutFinal_sublist : ∀ ps : List CssPiece, (withoutFinal ps).Sublist ps
  | [] => .slnil
  | p :: ps => by
    rw [withoutFinal]
    split
    · exact (withoutFinal_sublist ps).cons p
    · exact (withoutFinal_sublist ps).cons_cons p

/-- Nothing is taken out exactly if no semicolon comes before a closing brace. -/
theorem withoutFinal_cons_iff : withoutFinal (p :: ps) = p :: ps ↔
    ¬(p.item = .char ';' ∧ ps.head?.map CssPiece.item = some (.char '}')) ∧
      withoutFinal ps = ps := by
  rw [withoutFinal]
  split
  · next hfinal =>
    refine iff_of_false (fun heq => ?_) fun h => h.1 hfinal
    have hle := (withoutFinal_sublist ps).length_le
    rw [heq, List.length_cons] at hle
    exact absurd hle (Nat.not_succ_le_self _)
  · next hkept =>
    exact ⟨fun h => ⟨hkept, (List.cons.inj h).2⟩, fun h => congrArg (p :: ·) h.2⟩

/-- The piece after some pieces comes first without final semicolons as well, but for one. -/
theorem head?_withoutFinal_iff : ∀ ps : List CssPiece,
    (withoutFinal ps).head?.map CssPiece.item = some (.char '}') ↔
      ps.head?.map CssPiece.item = some (.char '}') ∨
        [.char ';', .char '}'] <+: ps.map CssPiece.item
  | [] => by simp [withoutFinal]
  | p :: ps => by
    rw [withoutFinal]
    split
    · next hfinal =>
      obtain ⟨q, rest, rfl⟩ : ∃ q rest, ps = q :: rest := by
        rcases ps with _ | ⟨q, rest⟩
        · cases hfinal.2
        · exact ⟨q, rest, rfl⟩
      have hq : q.item = .char '}' := Option.some.inj hfinal.2
      have hfirst : (withoutFinal (q :: rest)).head?.map CssPiece.item = some (.char '}') := by
        rw [withoutFinal, if_neg (by simp [hq])]
        exact hfinal.2
      exact iff_of_true hfirst (.inr (by simp [hfinal.1, hq]))
    · next hkept =>
      refine (or_iff_left_of_imp fun hfinal => ?_).symm
      rw [List.map_cons, List.cons_prefix_cons] at hfinal
      obtain ⟨rest, hrest⟩ := hfinal.2
      refine absurd ⟨hfinal.1.symm, ?_⟩ hkept
      rw [← List.head?_map, ← hrest]
      rfl

/-- **Taking away final semicolons leaves some where two of them stood before a closing brace.** -/
theorem withoutFinal_withoutFinal_iff : ∀ ps : List CssPiece,
    withoutFinal (withoutFinal ps) = withoutFinal ps ↔
      ¬[.char ';', .char ';', .char '}'] <:+: ps.map CssPiece.item
  | [] => by simp [withoutFinal]
  | p :: ps => by
    have ih := withoutFinal_withoutFinal_iff ps
    rw [List.map_cons, List.infix_cons_iff, not_or, ← ih, List.cons_prefix_cons]
    rw [withoutFinal]
    split
    · next hfinal =>
      refine (and_iff_right fun htwo => ?_).symm
      obtain ⟨rest, hrest⟩ := htwo.2
      have hhead : ps.head?.map CssPiece.item = some (.char ';') := by
        rw [← List.head?_map, ← hrest]
        rfl
      rw [hhead] at hfinal
      exact absurd hfinal.2 (by decide)
    · next hkept =>
      rw [withoutFinal_cons_iff, head?_withoutFinal_iff]
      refine and_congr_left fun _ => not_congr ⟨fun h => ⟨h.1.symm, ?_⟩, fun h => ⟨h.1.symm, .inr h.2⟩⟩
      exact h.2.resolve_left fun hbrace => hkept ⟨h.1, hbrace⟩

/-! ## Pieces in their places

The gaps that a pass writes are gaps that it would write again at the same places.  The places of
the written pieces are those of the pieces read, except that a prelude is looked at as it is
written. -/

/-- The pieces have the gaps that are written before them where they stand. -/
def Placed : CssPlace → List CssPiece → Prop
  | _, [] => True
  | place, p :: ps => p.gap = place.gapBefore p ∧ Placed (place.next p) ps

/-- Pieces that have the gaps of their places are kept. -/
theorem Placed.compacted_gapped : ∀ {place : CssPlace} {ps : List CssPiece}, Placed place ps →
    withoutFinal ps = ps → compacted (gapped place ps) = ps
  | _, [], _, _ => rfl
  | place, p :: ps, ⟨hgap, hps⟩, hfinal => by
    obtain ⟨hkept, hrest⟩ := withoutFinal_cons_iff.1 hfinal
    rw [gapped, if_neg hkept, compacted_cons, hps.compacted_gapped hrest, ← hgap]

/-- Where a piece stands does not depend on the blanks at its end. -/
theorem gapBefore_trimEnd (place : CssPlace) (p : CssPiece) :
    place.gapBefore ⟨p.gap, p.item.trimEnd⟩ = place.gapBefore p := by
  obtain ⟨gap, item⟩ := p
  cases item with
  | char c => rfl
  | string text =>
    rw [CssPlace.gapBefore, CssPlace.gapBefore, gapAfter, gapAfter,
      isTight_of_not_separator rfl, isTight_of_not_separator rfl]

theorem placed_trimLast : ∀ (place : CssPlace) (ps : List CssPiece), Placed place ps →
    Placed place (trimLast ps)
  | _, [], _ => trivial
  | place, [p], ⟨hgap, _⟩ => ⟨hgap.trans (gapBefore_trimEnd place p).symm, trivial⟩
  | place, p :: q :: ps, ⟨hgap, hps⟩ => ⟨hgap, placed_trimLast (place.next p) (q :: ps) hps⟩

/-- A gap that was written is written again. -/
theorem gapAfter_gapAfter {declares : Bool} {last before : Option CssPiece}
    (hlast : before.map CssPiece.item = last.map CssPiece.item) (p : CssPiece) :
    gapAfter declares before ⟨gapAfter declares last p, p.item⟩ = gapAfter declares last p := by
  have hsep : (before.all fun q => q.item.isSeparator) = last.all fun q => q.item.isSeparator := by
    have hall : ∀ last : Option CssPiece, (last.all fun q => q.item.isSeparator)
        = (last.map CssPiece.item).all CssItem.isSeparator := fun last => by cases last <;> rfl
    rw [hall, hall, hlast]
  have htight : isTight declares ⟨gapAfter declares last p, p.item⟩ = isTight declares p := rfl
  rw [gapAfter, htight, hsep]
  conv_rhs => rw [gapAfter]
  split
  · rfl
  · next hspace =>
    rw [gapAfter, if_neg hspace, oneSpace, oneSpace]
    split <;> rfl

/-- What is written of a run is written again. -/
theorem spread_spread (declares : Bool) : ∀ (last before : Option CssPiece) (ps : List CssPiece),
    before.map CssPiece.item = last.map CssPiece.item →
    spread declares before (spread declares last ps) = spread declares last ps
  | _, _, [], _ => rfl
  | last, before, p :: ps, h => by
    have ih := spread_spread declares (some p) (some ⟨gapAfter declares last p, p.item⟩) ps rfl
    rw [spread, spread, gapAfter_gapAfter h, ih]

/-- A block is known by what is written before its brace. -/
theorem isGroupRule_spread (declares : Bool) (hproper : ∀ p ∈ ps, p.item.IsProper) :
    isGroupRule (spread declares none ps) = isGroupRule ps := by
  have hwritten : ∀ p ∈ spread declares none ps, p.item.IsProper := by
    intro p hp
    have hitem := List.mem_map_of_mem (f := CssPiece.item) hp
    rw [map_item_spread] at hitem
    obtain ⟨q, hq, heq⟩ := List.mem_map.1 hitem
    exact heq ▸ hproper q hq
  rw [← holdsRules_render declares hproper, ← holdsRules_render declares hwritten,
    spread_spread declares none none ps rfl]

/-- A place in a stylesheet and the one that it becomes: the blocks count as the same. -/
def CssPlace.Alike (here there : CssPlace) : Prop :=
  there.within.map isGroupRule = here.within.map isGroupRule

theorem CssPlace.Alike.declares_eq (h : here.Alike there) : there.declares = here.declares := by
  have hdeclares : ∀ place : CssPlace,
      place.declares = ((place.within.map isGroupRule).head?.any fun rules => !rules) := by
    intro place
    rw [declares, List.head?_map]
    cases place.within.head? <;> rfl
  rw [hdeclares, hdeclares, h]

/-- The open blocks count as the same after a piece as after what is written of it. -/
theorem CssPlace.Alike.next (h : here.Alike there) {q : CssPiece} (hitem : q.item = p.item)
    (hproper : ∀ p ∈ here.prelude, p.item.IsProper)
    (hprelude : p.item = .char '}' ∨ there.prelude = here.compactPrelude) :
    (here.next p).Alike (there.next q) := by
  have hwithin : there.within.map isGroupRule = here.within.map isGroupRule := h
  rw [CssPlace.next, CssPlace.next, hitem]
  by_cases hopen : p.item = .char '{'
  · have hthere : there.prelude = here.compactPrelude :=
      hprelude.resolve_left (by rw [hopen]; decide)
    rw [if_pos hopen, if_pos hopen, Alike, List.map_cons, List.map_cons, hwithin, hthere,
      compactPrelude, isGroupRule_spread _ hproper]
  rw [if_neg hopen, if_neg hopen]
  by_cases hclose : p.item = .char '}'
  · rw [if_pos hclose, if_pos hclose, Alike, List.map_tail, List.map_tail, hwithin]
  rw [if_neg hclose, if_neg hclose]
  split
  · exact h
  · exact h

/-- A prelude grows by one piece at a time. -/
theorem CssPlace.mem_prelude_next {q : CssPiece} (h : q ∈ (place.next p).prelude) :
    q ∈ place.prelude ∨ q = p := by
  rw [next] at h
  split at h
  · cases h
  split at h
  · cases h
  split at h
  · cases h
  · rcases List.mem_append.1 h with hbefore | hlast
    · exact .inl hbefore
    · exact .inr (List.mem_singleton.1 hlast)

/-- What is written of a run goes on with what is written of a piece. -/
theorem CssPlace.prelude_next
    (hprelude : p.item = .char '}' ∨ there.prelude = here.compactPrelude) :
    (there.next ⟨here.gapBefore p, p.item⟩).prelude = (here.next p).compactPrelude := by
  by_cases hopen : p.item = .char '{'
  · rw [next, next, if_pos hopen, if_pos hopen]
    rfl
  by_cases hclose : p.item = .char '}'
  · rw [next, next, if_neg hopen, if_neg hopen, if_pos hclose, if_pos hclose]
    rfl
  by_cases hsemicolon : p.item = .char ';'
  · rw [next, next, if_neg hopen, if_neg hopen, if_neg hclose, if_neg hclose, if_pos hsemicolon,
      if_pos hsemicolon]
    rfl
  · have hthere := @next_of_not_bracket ⟨here.gapBefore p, p.item⟩ there hopen hclose hsemicolon
    rw [hthere, next_of_not_bracket hopen hclose hsemicolon, compactPrelude_concat,
      hprelude.resolve_left hclose]

/-- A piece is read back in a place that gives it the gap with which it was written. -/
theorem CssPlace.Alike.gapBefore_eq (h : here.Alike there)
    (hprelude : p.item = .char '}' ∨ there.prelude = here.compactPrelude) :
    there.gapBefore ⟨here.gapBefore p, p.item⟩ = here.gapBefore p := by
  by_cases hclose : p.item = .char '}'
  · rw [gapBefore_separator here hclose rfl (by decide)]
    exact gapBefore_separator there hclose rfl (by decide)
  · have hlast : there.prelude.getLast?.map CssPiece.item
        = here.prelude.getLast?.map CssPiece.item := by
      rw [hprelude.resolve_left hclose, compactPrelude, ← List.getLast?_map, map_item_spread,
        List.getLast?_map]
    rw [gapBefore, gapBefore, h.declares_eq, gapAfter_gapAfter hlast]

/-- **What is written is placed.**  The places that are gone through when it is read are those that
were gone through when it was written, but for a semicolon that the next brace takes away. -/
theorem placed_compacted : ∀ {here there : CssPlace} (ps : List CssPiece), here.Alike there →
    (∀ p ∈ here.prelude ++ ps, p.item.IsProper) →
    (ps.head?.map CssPiece.item = some (.char '}') ∨ there.prelude = here.compactPrelude) →
    Placed there (compacted (gapped here ps))
  | _, _, [], _, _, _ => trivial
  | here, there, p :: ps, halike, hproper, hprelude => by
    have hnext : ∀ q ∈ (here.next p).prelude ++ ps, q.item.IsProper := by
      intro q hq
      refine hproper q ?_
      rcases List.mem_append.1 hq with hmem | hmem
      · rcases CssPlace.mem_prelude_next hmem with hbefore | rfl
        · exact List.mem_append_left _ hbefore
        · exact List.mem_append_right _ List.mem_cons_self
      · exact List.mem_append_right _ (List.mem_cons_of_mem p hmem)
    rw [gapped]
    split
    · next hfinal =>
      have hsemicolon : here.next p = ⟨here.within, []⟩ := by
        rw [CssPlace.next, hfinal.1]
        rfl
      rw [hsemicolon] at hnext ⊢
      exact placed_compacted ps halike hnext (.inl hfinal.2)
    · have hplace : p.item = .char '}' ∨ there.prelude = here.compactPrelude :=
        hprelude.imp_left Option.some.inj
      have hbefore : ∀ q ∈ here.prelude, q.item.IsProper := fun q hq =>
        hproper q (List.mem_append_left _ hq)
      exact ⟨(halike.gapBefore_eq hplace).symm,
        placed_compacted ps (halike.next rfl hbefore hplace) hnext (.inr (CssPlace.prelude_next hplace))⟩

/-! ## Twice

A pass over its own output changes the semicolons, or nothing.  That is decided by lengths: what is
left out is never made up for. -/

/-- Whether a piece is a semicolon, and whether it is a closing brace. -/
def CssPiece.ends (p : CssPiece) : Bool × Bool :=
  (p.item == .char ';', p.item == .char '}')

theorem head?_item_iff (ps : List CssPiece) :
    ps.head?.map CssPiece.item = some (.char '}')
      ↔ (ps.map CssPiece.ends).head?.map Prod.snd = some true := by
  cases ps with
  | nil => simp
  | cons p ps => simp [CssPiece.ends]

/-- How many pieces are kept is known by those that are semicolons and closing braces. -/
theorem length_withoutFinal_congr : ∀ {ps qs : List CssPiece},
    ps.map CssPiece.ends = qs.map CssPiece.ends →
    (withoutFinal ps).length = (withoutFinal qs).length
  | [], [], _ => rfl
  | p :: ps, q :: qs, h => by
    obtain ⟨hfirst, hrest⟩ := List.cons.inj h
    have hsemicolon : p.item = .char ';' ↔ q.item = .char ';' := by
      have hbeq : (p.item == .char ';') = (q.item == .char ';') := congrArg Prod.fst hfirst
      rw [← beq_iff_eq, hbeq, beq_iff_eq]
    have hbrace : ps.head?.map CssPiece.item = some (.char '}')
        ↔ qs.head?.map CssPiece.item = some (.char '}') := by
      rw [head?_item_iff, head?_item_iff, hrest]
    have ih := length_withoutFinal_congr hrest
    rw [withoutFinal, withoutFinal]
    by_cases hfinal : p.item = .char ';' ∧ ps.head?.map CssPiece.item = some (.char '}')
    · rw [if_pos hfinal, if_pos ⟨hsemicolon.1 hfinal.1, hbrace.1 hfinal.2⟩, ih]
    · rw [if_neg hfinal, if_neg fun h => hfinal ⟨hsemicolon.2 h.1, hbrace.2 h.2⟩, List.length_cons,
        List.length_cons, ih]

theorem withoutFinal_eq_iff (ps : List CssPiece) :
    withoutFinal ps = ps ↔ (withoutFinal ps).length = ps.length :=
  ⟨congrArg List.length, (withoutFinal_sublist ps).eq_of_length⟩

/-- The last piece is trimmed already. -/
theorem trimLast_trimLast (ps : List CssPiece) : trimLast (trimLast ps) = trimLast ps := by
  have hitem : ∀ item : CssItem, item.trimEnd.trimEnd = item.trimEnd := by
    intro item
    cases item with
    | char c => rfl
    | string text =>
      rw [CssItem.trimEnd, CssItem.trimEnd, trimEnd_eq, trimEnd_eq, List.rdropWhile_idempotent]
  rcases List.eq_nil_or_concat' ps with rfl | ⟨ps, p, rfl⟩
  · rfl
  · rw [trimLast_concat, trimLast_concat, hitem]

/-- The pieces that are written are those of the stylesheet, as far as semicolons and braces go. -/
theorem map_ends_compactCss (css : List Char) : (pieces (compactCss css)).map CssPiece.ends
    = (withoutFinal (pieces css)).map CssPiece.ends := by
  have hends : ∀ p : CssPiece, CssPiece.ends ⟨p.gap, p.item.trimEnd⟩ = p.ends := by
    rintro ⟨gap, item⟩
    cases item <;> rfl
  rw [pieces_compactCss, map_trimLast hends, compacted, List.map_map,
    ← map_fst_gapped .start (pieces css), List.map_map]
  rfl

/-- **A compact stylesheet stays as it is when it is made compact again**, unless two semicolons
stood before a closing brace, blanks and comments aside: of these one is left. -/
theorem compactCss_compactCss_iff (css : List Char) :
    compactCss (compactCss css) = compactCss css ↔
      ¬[.char ';', .char ';', .char '}'] <:+: (pieces css).map CssPiece.item := by
  have hends := map_ends_compactCss css
  have hkept : withoutFinal (pieces (compactCss css)) = pieces (compactCss css)
      ↔ withoutFinal (withoutFinal (pieces css)) = withoutFinal (pieces css) := by
    have hlength := congrArg List.length hends
    rw [List.length_map, List.length_map] at hlength
    rw [withoutFinal_eq_iff, withoutFinal_eq_iff, length_withoutFinal_congr hends, hlength]
  rw [← withoutFinal_withoutFinal_iff, ← hkept, withoutFinal_eq_iff]
  constructor
  · intro h
    have hlength := congrArg List.length (map_ends_compactCss (compactCss css))
    rw [h, List.length_map, List.length_map] at hlength
    exact hlength.symm
  · intro h
    have hplaced : Placed .start (pieces (compactCss css)) := by
      rw [pieces_compactCss]
      refine placed_trimLast _ _ (placed_compacted _ rfl (fun p hp => ?_) (.inr rfl))
      exact (tidy_piecesFrom [] css).proper p hp
    rw [compactCss_eq (compactCss css),
      hplaced.compacted_gapped ((withoutFinal_eq_iff _).2 h), pieces_compactCss, trimLast_trimLast,
      ← compactCss_eq]

example : compactCss (compactCss "a\x7bb:c;;\x7d".toList) = "a\x7bb:c\x7d".toList := by cbv

end Artifact
end Frontispiece
