import Frontispiece.Markdown.Label
import Frontispiece.Proofs.Markdown.Line

/-!
# Link definitions before a gap

A link definition may go over several lines, but not over a gap.  So it is found, or not, whatever
comes after the gap: `definition?_append`.

The labels and titles of definitions are read character by character, and what is read may well go
over gaps.  It is dropped then because it has too many lines.

## What is here

* `FindsEnd` — a reader that finds a closing character, as those of labels and titles do.  What it
  finds beyond a text is dropped, so that it finds the same in the text alone
  (`FindsEnd.filter_append`).
* `StopsWithin` — a reader that stops before the last line feed of a text, as that of addresses
  does.
* `bind_append` — one reader after another, by which `definition?_append` goes through the parts of
  a definition.

A definition may go over several lines, so it is read from a text and not from lines, and what
stands before a gap could in principle be read together with what comes after it.  The limit on the
number of lines is what prevents that, and it is a limit on labels and titles separately.  So each
lemma comes in two forms: what is found before the gap is found whatever comes after it, and nothing
is found beyond the gap.
-/

set_option autoImplicit false

namespace Frontispiece
namespace Markdown

/-- Nothing, or a text whose first line is a gap. -/
def StartsWithGap (s : List Char) : Prop :=
  s = [] ∨ ∃ gap rest, IsGap gap ∧ s = gap ++ rest

variable {s x y : List Char} {c : Char}

/-! ## Readers that look for a character

A label, a title and a pointed address each end at the first character of some kind that no
backslash precedes.  If that character stands before the gap, the reader has seen nothing of what
comes after the gap, and this is all that is proved of such readers here. -/

/-- A reader that finds a character, and whose result does not depend on what comes after it. -/
def FindsEnd (close : Char) (f : List Char → Option (List Char × List Char)) : Prop :=
  ∀ s found r, f s = some (found, r) →
    ∃ u, s = u ++ close :: r ∧ ∀ r', f (u ++ close :: r') = some (found, r')

/-- A character that stands before the end of a text stands in its first part, if what comes after
the character is no shorter than the second. -/
theorem exists_eq_of_append_eq {u r : List Char} (h : x ++ y = u ++ c :: r)
    (hle : y.length ≤ r.length) : ∃ r₀, x = u ++ c :: r₀ := by
  obtain ⟨as, -, has⟩ | ⟨bs, hbs, hr⟩ := List.append_eq_append_iff.mp h
  · have hlength := congrArg List.length has
    rw [List.length_append, List.length_cons] at hlength
    omega
  · cases bs with
    | nil =>
      have hlength := congrArg List.length hr
      rw [List.length_cons, List.nil_append] at hlength
      omega
    | cons d r₀ =>
      obtain ⟨rfl, -⟩ := List.cons.inj hr
      exact ⟨r₀, hbs⟩

/-- What such a reader finds within a text it finds whatever comes after the text, if all else that
it may find is dropped. -/
theorem FindsEnd.filter_append {close : Char} {f : List Char → Option (List Char × List Char)}
    {p q : List Char × List Char → Bool} (hf : FindsEnd close f)
    (hwithin : ∀ found r, f x = some (found, r) → p (found, r ++ y) = q (found, r))
    (hbeyond : ∀ found u r, x ++ y = u ++ close :: r → f (x ++ y) = some (found, r) →
      r.length < y.length → p (found, r) = false) :
    (f (x ++ y)).filter p = ((f x).filter q).map fun found => (found.1, found.2 ++ y) := by
  cases hx : f x with
  | some result =>
    obtain ⟨found, r⟩ := result
    obtain ⟨u, hu, hsame⟩ := hf _ _ _ hx
    have hy : f (x ++ y) = some (found, r ++ y) := by
      rw [hu, List.append_assoc, List.cons_append]
      exact hsame _
    rw [hy, Option.filter_some, Option.filter_some, hwithin found r hx]
    split
    · rfl
    · rfl
  | none =>
    rw [Option.filter_none, Option.map_none]
    cases hy : f (x ++ y) with
    | none => rfl
    | some result =>
      obtain ⟨found, r⟩ := result
      obtain ⟨u, hu, hsame⟩ := hf _ _ _ hy
      rw [Option.filter_some, if_neg]
      rw [Bool.not_eq_true]
      refine hbeyond found u r hu hy (Nat.lt_of_not_le fun hle => ?_)
      obtain ⟨r₀, hr₀⟩ := exists_eq_of_append_eq hu hle
      rw [hr₀, hsame] at hx
      cases hx

/-- A reader and what is done with its result, when both do the same with more text behind. -/
theorem bind_append {α β : Type} {first first' : Option α} {next next' : α → Option β}
    {grow : α → α} {grow' : β → β} (hfirst : first' = first.map grow)
    (hnext : ∀ found, first = some found → next' (grow found) = (next found).map grow') :
    first'.bind next' = (first.bind next).map grow' := by
  rw [hfirst]
  cases first with
  | none => rfl
  | some found => exact hnext found rfl

/-! ## Labels

The text of a label may go over line ends, so its end may be found beyond the gap; but then the
label goes over more lines than the limit allows, and is dropped. -/

variable {count : Nat} {read : List Char} {gap broken : Bool}

/-- How a label is read by one character that is no backslash: it may be refused, may end the label,
may be one of several blanks that count as one, or is kept. -/
theorem labelFrom_cons (hc : c ≠ '\\') : labelFrom count read gap broken (c :: s)
    = if labelLimit ≤ count || c == '[' || c == '\\' then none
      else if c == ']' then
        if read.all (· == ' ') then none else some (read.reverse, s)
      else if isAsciiBlank c then
        if c == '\n' && broken then none
        else labelFrom (count + 1) (if gap then read else ' ' :: read) true (broken || c == '\n') s
      else labelFrom (count + 1) (c :: read) false false s := by
  rw [labelFrom]
  rintro d rest rfl
  exact absurd rfl hc

/-- A label ends at its bracket, and what comes after the bracket has not been looked at. -/
theorem labelFrom_findsEnd (count : Nat) (read : List Char) (gap broken : Bool) :
    FindsEnd ']' (labelFrom count read gap broken) := by
  intro s label r h
  -- a character that is read alone is no backslash
  have hne : ∀ {count : Nat} {c : Char},
      ¬(decide (labelLimit ≤ count) || c == '[' || c == '\\') = true → c ≠ '\\' := by
    rintro count c hlimit rfl
    simp at hlimit
  fun_induction labelFrom count read gap broken s with
  | case1 => cases h
  | case2 => cases h
  | case3 count read gap broken c rest hlimit ih =>
    obtain ⟨u, rfl, hu⟩ := ih h
    refine ⟨'\\' :: c :: u, rfl, fun r' => ?_⟩
    rw [List.cons_append, List.cons_append, labelFrom, if_neg hlimit]
    exact hu r'
  | case4 => cases h
  | case5 => cases h
  | case6 count read gap broken c rest _ hlimit hclose hblank =>
    obtain rfl : c = ']' := eq_of_beq hclose
    cases h
    refine ⟨[], rfl, fun r' => ?_⟩
    rw [List.nil_append, labelFrom_cons (hne hlimit), if_neg hlimit, if_pos hclose, if_neg hblank]
  | case7 => cases h
  | case8 count read gap broken c rest _ hlimit hclose hblank hbroken ih =>
    obtain ⟨u, rfl, hu⟩ := ih h
    refine ⟨c :: u, rfl, fun r' => ?_⟩
    rw [List.cons_append, labelFrom_cons (hne hlimit), if_neg hlimit, if_neg hclose, if_pos hblank,
      if_neg hbroken]
    exact hu r'
  | case9 count read gap broken c rest _ hlimit hclose hblank ih =>
    obtain ⟨u, rfl, hu⟩ := ih h
    refine ⟨c :: u, rfl, fun r' => ?_⟩
    rw [List.cons_append, labelFrom_cons (hne hlimit), if_neg hlimit, if_neg hclose, if_neg hblank]
    exact hu r'

/-! ## Titles

A title is read like a label, up to the mark that ends its kind.  What is left after it is enough to
tell what it holds, so only that is compared. -/

/-- A title ends at its closing character, whatever comes after that. -/
theorem titleFrom_findsEnd (close : Char) (refused : Option Char) (escaped : Bool)
    (read : List Char) : FindsEnd close (titleFrom close refused escaped read) := by
  intro s title r h
  induction s generalizing escaped read with
  | nil => cases h
  | cons c s ih =>
    rw [titleFrom] at h
    split at h
    · next hescaped =>
      obtain ⟨u, rfl, hu⟩ := ih _ _ h
      refine ⟨c :: u, rfl, fun r' => ?_⟩
      rw [List.cons_append, titleFrom, if_pos hescaped]
      exact hu r'
    · next hescaped =>
      split at h
      · next hclose =>
        obtain rfl : c = close := eq_of_beq hclose
        cases h
        refine ⟨[], rfl, fun r' => ?_⟩
        rw [List.nil_append, titleFrom, if_neg hescaped, if_pos hclose]
      · next hclose =>
        split at h
        · cases h
        · next hrefused =>
          obtain ⟨u, rfl, hu⟩ := ih _ _ h
          refine ⟨c :: u, rfl, fun r' => ?_⟩
          rw [List.cons_append, titleFrom, if_neg hescaped, if_neg hclose, if_neg hrefused]
          exact hu r'

/-- A title is all that stands before its end. -/
theorem titleFrom_eq {close : Char} {refused : Option Char} {escaped : Bool} {read : List Char}
    {title r : List Char} (h : titleFrom close refused escaped read s = some (title, r)) :
    ∃ u, s = u ++ close :: r ∧ title = read.reverse ++ u := by
  have hcons : ∀ {c : Char} {read s : List Char},
      (∃ u, s = u ++ close :: r ∧ title = (c :: read).reverse ++ u) →
        ∃ u, c :: s = u ++ close :: r ∧ title = read.reverse ++ u := by
    rintro c read s ⟨u, rfl, rfl⟩
    exact ⟨c :: u, rfl, by rw [List.reverse_cons, List.append_assoc, List.singleton_append]⟩
  induction s generalizing escaped read with
  | nil => cases h
  | cons c s ih =>
    rw [titleFrom] at h
    split at h
    · exact hcons (ih h)
    · split at h
      · next hclose =>
        obtain rfl : c = close := eq_of_beq hclose
        cases h
        exact ⟨[], rfl, (List.append_nil _).symm⟩
      · split at h
        · cases h
        · exact hcons (ih h)

/-! ## Addresses

An address holds no line feed.  So its reader stops before the end of its line, and a gap is out of
reach for it. -/

/-- A reader that stops before the last line feed of a text, whatever comes after the text. -/
structure StopsWithin (f : List Char → Option (List Char × List Char)) (x : List Char) : Prop where
  append : ∀ y, f (x ++ y) = (f x).map fun found => (found.1, found.2 ++ y)
  found : ∀ {found r}, f x = some (found, r) → IsEnded r ∧ r <:+ x

namespace StopsWithin

variable {f g : List Char → Option (List Char × List Char)}

theorem refuses (h : ∀ y, f (x ++ y) = none) : StopsWithin f x where
  append y := by rw [h y, ← List.append_nil x, h []]; rfl
  found hfound := by rw [← List.append_nil x, h []] at hfound; cases hfound

theorem finds {r : List Char} (found : List Char) (hr : IsEnded r) (hsuffix : r <:+ x)
    (h : ∀ y, f (x ++ y) = some (found, r ++ y)) : StopsWithin f x := by
  have hx : f x = some (found, r) := by simpa using h []
  refine ⟨fun y => by rw [h y, hx]; rfl, fun hfound => ?_⟩
  rw [hx] at hfound
  cases hfound
  exact ⟨hr, hsuffix⟩

theorem goesOn (h : ∀ s, f (c :: s) = g s) (hg : StopsWithin g x) : StopsWithin f (c :: x) where
  append y := by rw [List.cons_append, h, h, hg.append]
  found hfound :=
    (hg.found (h x ▸ hfound)).imp_right fun hsuffix => hsuffix.trans (List.suffix_cons _ _)

end StopsWithin

/-- An address in angle brackets cannot go over the end of a line. -/
theorem pointedFrom_stopsWithin (escaped : Bool) (read : List Char) (hx : IsEnded x) :
    StopsWithin (pointedFrom escaped read) x := by
  induction x generalizing escaped read with
  | nil => cases hx
  | cons c x ih =>
    by_cases hescaped : (escaped && Text.isAsciiPunctuation c) = true
    · refine .goesOn (fun s => by rw [pointedFrom, if_pos hescaped]) (ih _ _ (hx.tail ?_))
      rintro rfl
      rw [Bool.and_eq_true] at hescaped
      exact absurd hescaped.2 (by decide)
    · by_cases hclose : (c == '>') = true
      · obtain rfl : c = '>' := eq_of_beq hclose
        refine .finds read.reverse (hx.tail (by decide)) (List.suffix_cons _ _) fun y => ?_
        rw [List.cons_append, pointedFrom, if_neg hescaped, if_pos hclose]
      · by_cases hstop : (c == '<' || c == '\n') = true
        · refine .refuses fun y => ?_
          rw [List.cons_append, pointedFrom, if_neg hescaped, if_neg hclose, if_pos hstop]
        · have hread : ∀ s, pointedFrom escaped read (c :: s)
              = pointedFrom (c == '\\') (c :: read) s := fun s => by
            rw [pointedFrom, if_neg hescaped, if_neg hclose, if_neg hstop]
          refine .goesOn hread (ih _ _ (hx.tail ?_))
          rintro rfl
          exact hstop (by decide)

/-- Any other address ends at a blank, and a text that ends with a line feed has one in time. -/
theorem bareFrom_stopsWithin (limit nest : Nat) (escaped : Bool) (read : List Char)
    (hx : IsEnded x) : StopsWithin (bareFrom limit nest escaped read) x := by
  induction x generalizing nest escaped read with
  | nil => cases hx
  | cons c x ih =>
    by_cases hescaped : (escaped && Text.isAsciiPunctuation c) = true
    · refine .goesOn (fun s => by rw [bareFrom, if_pos hescaped]) (ih _ _ _ (hx.tail ?_))
      rintro rfl
      rw [Bool.and_eq_true] at hescaped
      exact absurd hescaped.2 (by decide)
    · by_cases hstop : (c ≤ ' ' || (c == ')' && nest == 0)) = true
      · by_cases hnest : (nest == 0) = true
        · refine .finds read.reverse hx (List.suffix_refl _) fun y => ?_
          rw [List.cons_append, bareFrom, if_neg hescaped, if_pos hstop, if_pos hnest]
        · refine .refuses fun y => ?_
          rw [List.cons_append, bareFrom, if_neg hescaped, if_pos hstop, if_neg hnest]
      · by_cases hdeep : (c == '(' && limit < nest) = true
        · refine .refuses fun y => ?_
          rw [List.cons_append, bareFrom, if_neg hescaped, if_neg hstop, if_pos hdeep]
        · refine .goesOn (fun s => by rw [bareFrom, if_neg hescaped, if_neg hstop, if_neg hdeep])
            (ih _ _ _ (hx.tail ?_))
          rintro rfl
          exact hstop (Bool.or_eq_true _ _ ▸ .inl (by decide))

theorem readAddress?_cons {limit : Nat} (hc : c ≠ '<') :
    readAddress? limit (c :: s) = bareFrom limit 0 false [] (c :: s) := by
  rw [readAddress?]
  rintro rest h
  exact hc (List.cons.inj h).1

/-- So an address ends within the text, of whichever form it is. -/
theorem readAddress?_stopsWithin (limit : Nat) (hx : IsEnded x) :
    StopsWithin (readAddress? limit) x := by
  cases x with
  | nil => cases hx
  | cons c x =>
    by_cases hc : c = '<'
    · subst hc
      exact .goesOn (fun s => rfl) (pointedFrom_stopsWithin _ _ (hx.tail (by decide)))
    · obtain ⟨happend, hbare⟩ := bareFrom_stopsWithin limit 0 false [] hx
      refine ⟨fun y => ?_, fun hfound => hbare (readAddress?_cons hc ▸ hfound)⟩
      rw [List.cons_append, readAddress?_cons hc, readAddress?_cons hc, ← List.cons_append, happend]

/-! ## Between the parts of a definition

Blanks and at most one line end may stand between the parts.  If they run into the gap, then what
follows is no part of the definition, whatever it is. -/

/-- After blanks, a gap has ended. -/
theorem StartsWithGap.dropWhile (h : StartsWithGap y) :
    y.dropWhile isLineBlank = [] ∨ ∃ rest, y.dropWhile isLineBlank = '\n' :: rest := by
  obtain rfl | ⟨gap, rest, hgap, rfl⟩ := h
  · exact .inl rfl
  · refine .inr ⟨rest, ?_⟩
    have hdrop := hgap.dropWhile (p := isLineBlank) (by decide) (by decide) (by decide)
    rw [List.dropWhile_append, hdrop]
    rfl

theorem definitionGap?_of_feed {rest : List Char} (h : s.dropWhile isLineBlank = '\n' :: rest) :
    definitionGap? s = if (rest.dropWhile isLineBlank).head? == some '\n'
        || (rest.dropWhile isLineBlank).isEmpty then none
      else some (rest.dropWhile isLineBlank, true) := by
  rw [definitionGap?, h]
  rfl

theorem definitionGap?_of_text {rest : List Char} (h : s.dropWhile isLineBlank = c :: rest)
    (hc : c ≠ '\n') : definitionGap? s = some (c :: rest, false) := by
  rw [definitionGap?, h]
  simp [hc]

/-- The blanks between the parts of a definition are read without a look at what comes after the
text, because two line ends in a row are refused either way. -/
theorem definitionGap?_append (hx : IsEnded x) (hy : StartsWithGap y) :
    definitionGap? (x ++ y) = (definitionGap? x).map fun found => (found.1 ++ y, found.2) := by
  have hxy := hx.dropWhile_append (p := isLineBlank) (by decide) y
  have hdropped := hx.dropWhile (p := isLineBlank) (by decide)
  cases hx' : x.dropWhile isLineBlank with
  | nil =>
    rw [hx'] at hdropped
    cases hdropped
  | cons c rest =>
    rw [hx'] at hdropped hxy
    rw [List.cons_append] at hxy
    by_cases hc : c = '\n'
    · subst hc
      rw [definitionGap?_of_feed hxy, definitionGap?_of_feed hx']
      by_cases hrest : rest = []
      · -- the line feed is the last of the text, so another one comes next, or nothing
        subst hrest
        obtain hnil | ⟨next, hnext⟩ := hy.dropWhile
        · simp [hnil]
        · simp [hnext]
      · have hended := IsEnded.of_append (u := ['\n']) hdropped hrest
        rw [hended.dropWhile_append (p := isLineBlank) (by decide)]
        have hnext := hended.dropWhile (p := isLineBlank) (by decide)
        generalize rest.dropWhile isLineBlank = next at hnext
        cases next with
        | nil => cases hnext
        | cons d next =>
          simp only [List.cons_append, List.head?_cons, List.isEmpty_cons, Bool.or_false]
          split
          · rfl
          · rfl
    · rw [definitionGap?_of_text hxy hc, definitionGap?_of_text hx' hc]
      rfl

/-- What comes after these blanks ends with a line feed as well. -/
theorem definitionGap?_found {rest : List Char} {broken : Bool} (hx : IsEnded x)
    (h : definitionGap? x = some (rest, broken)) : IsEnded rest ∧ rest <:+ x := by
  have hdropped := hx.dropWhile (p := isLineBlank) (by decide)
  have hsuffix := List.dropWhile_suffix isLineBlank (l := x)
  cases hx' : x.dropWhile isLineBlank with
  | nil =>
    rw [hx'] at hdropped
    cases hdropped
  | cons c next =>
    rw [hx'] at hdropped hsuffix
    by_cases hc : c = '\n'
    · subst hc
      rw [definitionGap?_of_feed hx'] at h
      split at h
      · cases h
      · next hnext =>
        cases h
        refine ⟨IsEnded.dropWhile (by decide) (IsEnded.of_append (u := ['\n']) hdropped ?_),
          (List.dropWhile_suffix _).trans ((List.suffix_cons _ _).trans hsuffix)⟩
        rintro rfl
        exact hnext rfl
    · rw [definitionGap?_of_text hx' hc] at h
      cases h
      exact ⟨hdropped, hsuffix⟩

/-- Whether the rest of a line is blank depends on that line alone. -/
theorem lineAfter?_append (hx : IsEnded x) (y : List Char) :
    lineAfter? (x ++ y) = (lineAfter? x).map (· ++ y) := by
  rw [lineAfter?, lineAfter?, hx.dropWhile_append (by decide)]
  have hdropped := hx.dropWhile (p := isLineBlank) (by decide)
  generalize x.dropWhile isLineBlank = dropped at hdropped
  cases dropped with
  | nil => cases hdropped
  | cons c rest =>
    by_cases hc : c = '\n'
    · subst hc
      rfl
    · simp [hc]

/-- What comes after the rest of a line is nothing, or ends with a line feed as well. -/
theorem lineAfter?_isEnded {after : List Char} (hx : IsEnded x) (h : lineAfter? x = some after) :
    after = [] ∨ IsEnded after := by
  rw [lineAfter?] at h
  have hdropped := hx.dropWhile (p := isLineBlank) (by decide)
  split at h
  · cases h
    exact .inl rfl
  · next rest heq =>
    cases h
    rw [heq] at hdropped
    exact or_iff_not_imp_left.mpr (IsEnded.of_append (u := ['\n']) hdropped)
  · cases h

/-! ## Definitions

The parts are put together here.  A definition without a title may end where one with a title goes
on, which is why there are two ways to end one, and why each part says both what it finds and what
it leaves. -/

/-- Whether what stands before `rest` in a text has fewer line feeds than a limit. -/
def within (limit : Nat) (s rest : List Char) : Bool :=
  (s.take (s.length - rest.length)).count '\n' < limit

theorem within_append {limit : Nat} {r : List Char} (hr : r.length ≤ x.length) :
    within limit (x ++ y) (r ++ y) = within limit x r := by
  have hlength : (x ++ y).length - (r ++ y).length = x.length - r.length := by
    rw [List.length_append, List.length_append]
    omega
  rw [within, within, hlength, List.take_append_of_le_length (by omega)]

theorem within_beyond {limit : Nat} {r : List Char} (hlimit : limit ≤ x.count '\n')
    (hr : r.length ≤ y.length) : within limit (x ++ y) r = false := by
  have hstart : x <+: (x ++ y).take ((x ++ y).length - r.length) := by
    rw [List.take_append, List.take_of_length_le (by rw [List.length_append]; omega)]
    exact List.prefix_append _ _
  rw [within, decide_eq_false_iff_not, Nat.not_lt]
  exact hlimit.trans (hstart.sublist.count_le _)

/-- The title of a definition, if it is not too long. -/
def shortTitle? (limit : Nat) (whole s : List Char) : Option (List Char × List Char) :=
  (readTitle? true s).filter fun found => !found.1.contains '\n' || within limit whole found.2

/-- The definition of a label with an address and no title, of which `rest` is left. -/
def untitledEnd (label url rest : List Char) : Option (List Char × Target × List Char) :=
  (lineAfter? rest).map fun after => (label, (⟨unescape url, []⟩ : Target), after)

/-- The definition of a label with an address, whose title is next. -/
def titledEnd (limit : Nat) (whole label url next : List Char) :
    Option (List Char × Target × List Char) := do
  let (title, after) ← shortTitle? limit whole next
  let after ← lineAfter? after
  some (label, (⟨unescape url, unescape title⟩ : Target), after)

/-- The definition of a label with an address, of which `rest` is left. -/
def definitionEnd (limit : Nat) (whole label url rest : List Char) :
    Option (List Char × Target × List Char) :=
  match definitionGap? rest with
  | none => untitledEnd label url rest
  | some ([], _) => untitledEnd label url rest
  | some (next, broken) =>
    if next.length == rest.length then none
    else if broken then (titledEnd limit whole label url next).or (untitledEnd label url rest)
    else titledEnd limit whole label url next

theorem definition?_cons (limit : Nat) (body : List Char) :
    definition? limit ('[' :: body) = (do
      let found ← (readLabel? body).filter fun found => within limit ('[' :: body) found.2
      let start ← (Text.dropLead? [':'] found.2).bind definitionGap?
      let address ← readAddress? definitionNesting start.1
      if address.2.length == start.1.length then none
      else definitionEnd limit ('[' :: body) found.1 address.1 address.2) := rfl

/-- A title in a text starts and ends at characters that are no line feeds. -/
theorem readTitle?_cons (nested : Bool) (c : Char) : (∀ s, readTitle? nested (c :: s) = none) ∨
    c ≠ '\n' ∧ ∃ close refused, close ≠ '\n' ∧
      ∀ s, readTitle? nested (c :: s) = titleFrom close refused false [] s := by
  by_cases hquote : (c == '"' || c == '\'') = true
  · have hc : c ≠ '\n' := by
      rintro rfl
      exact absurd hquote (by decide)
    exact .inr ⟨hc, c, none, hc, fun s => by rw [readTitle?, if_pos hquote]⟩
  · by_cases hopen : (c == '(') = true
    · have hc : c ≠ '\n' := by
        rintro rfl
        exact absurd hopen (by decide)
      exact .inr ⟨hc, ')', _, by decide, fun s => by rw [readTitle?, if_neg hquote, if_pos hopen]⟩
    · exact .inl fun s => by rw [readTitle?, if_neg hquote, if_neg hopen]

variable {limit : Nat} {whole label url : List Char}

/-- A title that may not go over more lines than the text has is found within the text, or is too
long with whatever comes after it. -/
theorem shortTitle?_append (hx : IsEnded x) (hle : x.length ≤ whole.length)
    (hlimit : limit ≤ whole.count '\n') :
    shortTitle? limit (whole ++ y) (x ++ y)
      = (shortTitle? limit whole x).map fun found => (found.1, found.2 ++ y) := by
  cases x with
  | nil => cases hx
  | cons c x =>
    rw [shortTitle?, shortTitle?, List.cons_append]
    obtain hnone | ⟨hc, close, refused, hclose, htitle⟩ := readTitle?_cons true c
    · rw [hnone, hnone]
      rfl
    · rw [htitle, htitle]
      have hfinds := titleFrom_findsEnd close refused false []
      refine hfinds.filter_append (fun title r h => ?_) fun title u r hu h hr => ?_
      · obtain ⟨u, rfl, -⟩ := hfinds _ _ _ h
        rw [within_append]
        simp only [List.length_cons, List.length_append] at hle ⊢
        omega
      · -- such a title has the line feed at the end of the text
        obtain ⟨u', hu', htitle'⟩ := titleFrom_eq h
        have hstart : x <+: u' := by
          refine List.prefix_of_prefix_length_le (List.prefix_append x y)
            (hu' ▸ List.prefix_append _ _) ?_
          have hlength := congrArg List.length hu'
          simp only [List.length_cons, List.length_append] at hlength
          omega
        have hfeed : '\n' ∈ title := by
          rw [htitle', List.reverse_nil, List.nil_append]
          exact hstart.subset (hx.tail hc).mem
        rw [within_beyond hlimit hr.le]
        simpa using hfeed

/-- What comes after such a title ends with a line feed as well. -/
theorem shortTitle?_found {found : List Char × List Char} (hx : IsEnded x)
    (h : shortTitle? limit whole x = some found) : IsEnded found.2 := by
  cases x with
  | nil => cases hx
  | cons c x =>
    rw [shortTitle?] at h
    obtain hnone | ⟨hc, close, refused, hclose, htitle⟩ := readTitle?_cons true c
    · rw [hnone] at h
      cases h
    · rw [htitle] at h
      obtain ⟨u, rfl, -⟩ :=
        titleFrom_findsEnd close refused false [] _ _ _ (Option.eq_some_of_filter_eq_some h)
      exact (hx.tail hc).after hclose

/-- A definition with more text after it. -/
def withRest (y : List Char) (d : List Char × Target × List Char) :
    List Char × Target × List Char :=
  (d.1, d.2.1, d.2.2 ++ y)

theorem untitledEnd_append {rest : List Char} (hrest : IsEnded rest) (y : List Char) :
    untitledEnd label url (rest ++ y) = (untitledEnd label url rest).map (withRest y) := by
  rw [untitledEnd, untitledEnd, lineAfter?_append hrest, Option.map_map, Option.map_map]
  rfl

theorem titledEnd_append {next : List Char} (hnext : IsEnded next)
    (hle : next.length ≤ whole.length) (hlimit : limit ≤ whole.count '\n') :
    titledEnd limit (whole ++ y) label url (next ++ y)
      = (titledEnd limit whole label url next).map (withRest y) := by
  refine bind_append (shortTitle?_append hnext hle hlimit) fun found htitle => ?_
  exact bind_append (lineAfter?_append (shortTitle?_found hnext htitle) y) fun after _ => rfl

/-- Two texts are as long as each other with more text behind if they are so without it. -/
theorem length_append_beq (s x y : List Char) :
    ((s ++ y).length == (x ++ y).length) = (s.length == x.length) := by
  rw [List.length_append, List.length_append]
  simp

/-- The end of a definition, with a title or without one, does not depend on what comes after the
gap. -/
theorem definitionEnd_append {rest : List Char} (hrest : IsEnded rest)
    (hle : rest.length ≤ whole.length) (hlimit : limit ≤ whole.count '\n') (hy : StartsWithGap y) :
    definitionEnd limit (whole ++ y) label url (rest ++ y)
      = (definitionEnd limit whole label url rest).map (withRest y) := by
  rw [definitionEnd, definitionEnd, untitledEnd_append hrest, definitionGap?_append hrest hy]
  cases hgap : definitionGap? rest with
  | none => rfl
  | some gap =>
    obtain ⟨next, broken⟩ := gap
    obtain ⟨hnext, hsuffix⟩ := definitionGap?_found hrest hgap
    have htitled : titledEnd limit (whole ++ y) label url (next ++ y) = _ :=
      titledEnd_append hnext (hsuffix.length_le.trans hle) hlimit
    have hlength := length_append_beq next rest y
    cases next with
    | nil => cases hnext
    | cons c next =>
      rw [List.cons_append] at htitled hlength
      simp only [Option.map_some, List.cons_append, htitled, hlength]
      split
      · rfl
      · split
        · rw [Option.map_or]
        · rfl

theorem definition?_of_ne (hc : c ≠ '[') : definition? limit (c :: s) = none := by
  rw [definition?]
  rintro body h
  exact hc (List.cons.inj h).1

/-- Whether a colon comes first is seen from a text that is not empty. -/
theorem dropColon_append (hx : x ≠ []) :
    Text.dropLead? [':'] (x ++ y) = (Text.dropLead? [':'] x).map (· ++ y) := by
  cases x with
  | nil => exact absurd rfl hx
  | cons c x =>
    rw [List.cons_append, Text.dropLead?, Text.dropLead?, Text.dropLead?, Text.dropLead?]
    split
    · rfl
    · rfl

/-- The text after the colon, and the colon, are the whole text. -/
theorem dropColon_eq {rest : List Char} (h : Text.dropLead? [':'] s = some rest) :
    s = ':' :: rest := by
  cases s with
  | nil => cases h
  | cons c s =>
    rw [Text.dropLead?] at h
    split at h
    · next hc =>
      cases h
      rw [eq_of_beq hc]
    · cases h

/-- A label that may not go over more lines than the text has is found within the text as well. -/
theorem shortLabel?_append {body : List Char} (hlimit : limit ≤ ('[' :: body).count '\n') :
    (readLabel? (body ++ y)).filter (fun found => within limit ('[' :: body ++ y) found.2)
      = ((readLabel? body).filter fun found => within limit ('[' :: body) found.2).map
        fun found => (found.1, found.2 ++ y) := by
  have hfinds : FindsEnd ']' readLabel? := labelFrom_findsEnd 0 [] false false
  refine hfinds.filter_append (fun label r h => within_append ?_)
    fun label u r hu h hr => within_beyond hlimit hr.le
  obtain ⟨u, rfl, -⟩ := hfinds _ _ _ h
  simp only [List.length_cons, List.length_append]
  omega

/-- **A definition is found before a gap whatever comes after the gap.**  The text before it has
more lines than the label and the title of the definition may go over. -/
theorem definition?_append (hx : IsEnded x) (hlimit : limit ≤ x.count '\n')
    (hy : StartsWithGap y) :
    definition? limit (x ++ y) = (definition? limit x).map (withRest y) := by
  cases x with
  | nil => cases hx
  | cons c body =>
    by_cases hc : c = '['
    · subst hc
      rw [List.cons_append, definition?_cons, definition?_cons, ← List.cons_append]
      -- the label, the colon, what stands before the address, the address, and what comes after it
      refine bind_append (shortLabel?_append hlimit) fun (label, rest) hlabel => ?_
      obtain ⟨u, rfl, -⟩ := labelFrom_findsEnd 0 [] false false _ _ _
        (Option.eq_some_of_filter_eq_some hlabel)
      have hrest : IsEnded rest := (hx.tail (by decide)).after (by decide)
      have hcolon : ∀ text, Text.dropLead? [':'] rest = some text → IsEnded text := by
        intro text htext
        rw [dropColon_eq htext] at hrest
        exact hrest.tail (by decide)
      refine bind_append (bind_append (dropColon_append hrest.ne_nil)
        fun text htext => definitionGap?_append (hcolon text htext) hy) fun (start, broken) h => ?_
      obtain ⟨text, htext, hgap⟩ := Option.bind_eq_some_iff.mp h
      obtain ⟨hstart, hstartSuffix⟩ := definitionGap?_found (hcolon text htext) hgap
      obtain ⟨happend, haddress⟩ := readAddress?_stopsWithin definitionNesting hstart
      refine bind_append (happend y) fun (url, after) hread => ?_
      obtain ⟨hafter, hafterSuffix⟩ := haddress hread
      dsimp only
      rw [length_append_beq, definitionEnd_append hafter ?_ hlimit hy]
      · split
        · rfl
        · rfl
      · have hle := hafterSuffix.length_le.trans hstartSuffix.length_le
        have hlength := congrArg List.length (dropColon_eq htext)
        simp only [List.length_cons, List.length_append] at hlength ⊢
        omega
    · rw [List.cons_append, definition?_of_ne hc, definition?_of_ne hc]
      rfl

theorem untitledEnd_found {rest : List Char} {d : List Char × Target × List Char}
    (hrest : IsEnded rest) (h : untitledEnd label url rest = some d) :
    d.2.2 = [] ∨ IsEnded d.2.2 := by
  obtain ⟨after, hafter, rfl⟩ := Option.map_eq_some_iff.mp h
  exact lineAfter?_isEnded hrest hafter

theorem titledEnd_found {next : List Char} {d : List Char × Target × List Char}
    (hnext : IsEnded next) (h : titledEnd limit whole label url next = some d) :
    d.2.2 = [] ∨ IsEnded d.2.2 := by
  obtain ⟨⟨title, after⟩, htitle, h⟩ := Option.bind_eq_some_iff.mp h
  obtain ⟨rest, hafter, h⟩ := Option.bind_eq_some_iff.mp h
  cases h
  exact lineAfter?_isEnded (shortTitle?_found hnext htitle) hafter

/-- What comes after the end of a definition is nothing, or ends with a line feed. -/
theorem definitionEnd_found {rest : List Char} {d : List Char × Target × List Char}
    (hrest : IsEnded rest) (h : definitionEnd limit whole label url rest = some d) :
    d.2.2 = [] ∨ IsEnded d.2.2 := by
  rw [definitionEnd] at h
  split at h
  · exact untitledEnd_found hrest h
  · exact untitledEnd_found hrest h
  · next next broken hne hgap =>
    have hnext := (definitionGap?_found hrest hgap).1
    split at h
    · cases h
    · split at h
      · obtain h | ⟨-, h⟩ := Option.or_eq_some_iff.mp h
        · exact titledEnd_found hnext h
        · exact untitledEnd_found hrest h
      · exact titledEnd_found hnext h

/-- What stands after a definition starts a line. -/
theorem definition?_found {d : List Char × Target × List Char} (hx : IsEnded x)
    (h : definition? limit x = some d) : d.2.2 = [] ∨ IsEnded d.2.2 := by
  cases x with
  | nil => cases hx
  | cons c body =>
    by_cases hc : c = '['
    · subst hc
      rw [definition?_cons] at h
      obtain ⟨⟨label, rest⟩, hlabel, h⟩ := Option.bind_eq_some_iff.mp h
      obtain ⟨⟨start, broken⟩, hstart, h⟩ := Option.bind_eq_some_iff.mp h
      obtain ⟨⟨url, after⟩, haddress, h⟩ := Option.bind_eq_some_iff.mp h
      obtain ⟨text, hcolon, hgap⟩ := Option.bind_eq_some_iff.mp hstart
      obtain ⟨u, rfl, -⟩ := labelFrom_findsEnd 0 [] false false _ _ _
        (Option.eq_some_of_filter_eq_some hlabel)
      have hrest : IsEnded rest := (hx.tail (by decide)).after (by decide)
      rw [show rest = ':' :: text from dropColon_eq hcolon] at hrest
      have hstart := (definitionGap?_found (hrest.tail (by decide)) hgap).1
      split at h
      · cases h
      · exact definitionEnd_found ((readAddress?_stopsWithin _ hstart).found haddress).1 h
    · rw [definition?_of_ne hc] at h
      cases h

end Markdown
end Frontispiece
