import Frontispiece.Text.Split
import Mathlib.Data.List.DropRight

/-!
# Pieces of texts

A text is cut into pieces at marks, and into words at blanks.  Both ways of cutting it can be done on
each side of a mark alone, and so they take apart what was joined with marks.

## What is here

* `splitOn_append`, `words_append` — what stands on the two sides of a mark is cut on its own.
* `splitOn_of_free`, `words_of_isWord` — a text without marks is one piece.
* `cutWhere?_append` — a text is cut at its first mark.
* `startsWith_iff`, `endsWith_iff`, `dropTrailing_eq` — how texts start and end, and what is left
  without their ends.
* `cut_intercalate` — **joined texts are cut into the pieces of each**, for both ways of cutting.

The functions that cut texts are loops with an accumulator.  Each is shown once to do what it says,
by induction with the accumulator generalized, and from then on only equations are used: how a text
is cut that is made of two, and which texts are left in one piece.
-/

set_option autoImplicit false

namespace Frontispiece
namespace Text

variable {p : Char → Bool} {mark : Char} {s : List Char}

/-! ## Marks

Cutting at a mark goes from left to right and keeps the piece at hand.  What is proved of it is what
happens at a mark and what happens without one. -/

/-- There is always a piece, even of an empty text. -/
theorem splitOn_ne_nil (p : Char → Bool) (s : List Char) : splitOn p s ≠ [] := by
  cases s with
  | nil => exact List.cons_ne_nil _ _
  | cons c s =>
    rw [splitOn]
    split
    · exact List.cons_ne_nil _ _
    · split
      · exact List.cons_ne_nil _ _
      · exact List.cons_ne_nil _ _

/-- A text is cut at a mark into the pieces before it and those after it. -/
theorem splitOn_append (h : p mark = true) (t : List Char) : ∀ s : List Char,
    splitOn p (s ++ mark :: t) = splitOn p s ++ splitOn p t
  | [] => by simp [splitOn, h]
  | c :: s => by
    have ih := splitOn_append h t s
    obtain ⟨piece, pieces, hs⟩ := List.exists_cons_of_ne_nil (splitOn_ne_nil p s)
    rw [hs, List.cons_append] at ih
    rw [List.cons_append, splitOn, splitOn, ih, hs]
    split
    · rfl
    · rfl

theorem splitOn_of_free : ∀ {s : List Char}, (∀ c ∈ s, p c = false) → splitOn p s = [s]
  | [], _ => rfl
  | c :: s, h => by
    have ih := splitOn_of_free fun d hd => h d (List.mem_cons_of_mem c hd)
    simp [splitOn, ih, h c List.mem_cons_self]

/-- No piece has a mark in it. -/
theorem free_of_mem_splitOn : ∀ {s piece : List Char}, piece ∈ splitOn p s →
    ∀ c ∈ piece, p c = false
  | [], piece, h, c, hc => by
    rw [List.mem_singleton.1 h] at hc
    cases hc
  | d :: s, piece, h, c, hc => by
    obtain ⟨first, pieces, hs⟩ := List.exists_cons_of_ne_nil (splitOn_ne_nil p s)
    have ih : ∀ other ∈ first :: pieces, ∀ c ∈ other, p c = false := fun other hother =>
      free_of_mem_splitOn (hs ▸ hother)
    rw [splitOn, hs] at h
    split at h
    · rcases List.mem_cons.1 h with rfl | hrest
      · cases hc
      · exact ih piece hrest c hc
    · next hd =>
      rcases List.mem_cons.1 h with rfl | hrest
      · rcases List.mem_cons.1 hc with rfl | hc
        · exact Bool.eq_false_iff.2 hd
        · exact ih first List.mem_cons_self c hc
      · exact ih piece (List.mem_cons_of_mem _ hrest) c hc

/-- The first place of a mark is where what comes before it ends. -/
theorem cutWhere?_append (mark : Char) (hmark : p mark = true) (rest : List Char) :
    ∀ {s : List Char}, (∀ c ∈ s, p c = false) → cutWhere? p (s ++ mark :: rest) = some (s, rest)
  | [], _ => by simp [cutWhere?, hmark]
  | c :: s, h => by
    have ih := cutWhere?_append mark hmark rest fun d hd => h d (List.mem_cons_of_mem _ hd)
    rw [List.cons_append, cutWhere?, if_neg (by simp [h c List.mem_cons_self]), ih]
    rfl

/-- A text that is cut is what comes before the mark, the mark, and what comes after it. -/
theorem eq_append_of_cutWhere? : ∀ {s before after : List Char},
    cutWhere? p s = some (before, after) → ∃ mark, s = before ++ mark :: after
  | [], _, _, h => by cases h
  | c :: s, before, after, h => by
    rw [cutWhere?] at h
    split at h
    · cases h
      exact ⟨c, rfl⟩
    · obtain ⟨⟨inner, rest⟩, hcut, heq⟩ := Option.map_eq_some_iff.1 h
      obtain ⟨mark, rfl⟩ := eq_append_of_cutWhere? hcut
      cases heq
      exact ⟨mark, rfl⟩

/-! ## Ends of texts

A text starts or ends with another when it is that text with something behind or before it.
Trimming takes characters off both ends and no others. -/

/-- The test for a start is a test for a prefix. -/
theorem startsWith_iff {lead : List Char} : startsWith lead s = true ↔ lead <+: s := by
  induction lead generalizing s with
  | nil => exact iff_of_true rfl (List.nil_prefix)
  | cons c lead ih =>
    cases s with
    | nil => exact iff_of_false Bool.false_ne_true fun h => List.cons_ne_nil _ _ (List.prefix_nil.1 h)
    | cons d s =>
      rw [List.cons_prefix_cons, ← ih, startsWith, dropLead?, startsWith]
      by_cases heq : c = d
      · simp [heq]
      · simp [heq]

theorem endsWith_iff {tail : List Char} : endsWith tail s = true ↔ tail <:+ s := by
  rw [endsWith, startsWith_iff, List.reverse_prefix]

/-- What is dropped at the end is what `List.rdropWhile` drops. -/
theorem dropTrailing_eq (p : Char → Bool) (s : List Char) : dropTrailing p s = s.rdropWhile p := by
  induction s with
  | nil => rfl
  | cons c s ih =>
    rw [List.rdropWhile, List.reverse_cons, List.dropWhile_append, dropTrailing, List.foldr_cons,
      ← dropTrailing, ih, List.rdropWhile, List.isEmpty_reverse]
    rcases hrest : s.reverse.dropWhile p with _ | ⟨d, rest⟩
    · cases hc : p c <;> simp [hc]
    · simp

/-- A tail of nothing but such characters is dropped with those before it. -/
theorem dropTrailing_append_of_all {p : Char → Bool} {tail : List Char}
    (h : ∀ c ∈ tail, p c = true) (s : List Char) :
    dropTrailing p (s ++ tail) = dropTrailing p s := by
  have hnil : dropTrailing p tail = [] := by
    rw [dropTrailing_eq]
    exact List.rdropWhile_eq_nil_iff.2 h
  rw [dropTrailing, List.foldr_append, ← dropTrailing, hnil]
  rfl

theorem dropTrailing_sublist (p : Char → Bool) : ∀ s : List Char, (dropTrailing p s).Sublist s
  | [] => List.Sublist.refl []
  | c :: s => by
    have ih := dropTrailing_sublist p s
    rw [dropTrailing, List.foldr_cons, ← dropTrailing]
    split
    · exact List.nil_sublist _
    · exact ih.cons_cons c

/-- What is trimmed has no other characters. -/
theorem trim_sublist (s : List Char) : (trim s).Sublist s :=
  (dropTrailing_sublist isBlank _).trans (List.dropWhile_sublist _)

/-! ## Words

Words are what is between blanks, and there is no empty one.  So blanks at the ends and several
blanks in a row make no difference, unlike marks. -/

/-- A text that has characters, and no blank ones. -/
def IsWord (s : List Char) : Prop :=
  s ≠ [] ∧ ∀ c ∈ s, isBlank c = false

instance (s : List Char) : Decidable (IsWord s) :=
  inferInstanceAs (Decidable (_ ∧ _))

/-- The word that is being read ends at a blank. -/
theorem wordsFrom_append (h : isBlank mark = true) (t : List Char) : ∀ s word : List Char,
    wordsFrom word (s ++ mark :: t) = wordsFrom word s ++ words t
  | [], word => by
    rw [List.nil_append]
    simp only [wordsFrom, h, words, if_true]
    split
    · rfl
    · rfl
  | c :: s, word => by
    rw [List.cons_append]
    simp only [wordsFrom, wordsFrom_append h t s]
    split
    · split
      · rfl
      · rfl
    · rfl

theorem words_append (h : isBlank mark = true) (s t : List Char) :
    words (s ++ mark :: t) = words s ++ words t :=
  wordsFrom_append h t s []

/-- A text without blanks goes on with the word before it. -/
theorem wordsFrom_of_free : ∀ {s : List Char} (word : List Char), (∀ c ∈ s, isBlank c = false) →
    wordsFrom word s = wordsFrom (s.reverse ++ word) []
  | [], _, _ => rfl
  | c :: s, word, h => by
    have hc : ¬isBlank c = true := by simp [h c List.mem_cons_self]
    have hs : ∀ d ∈ s, isBlank d = false := fun d hd => h d (List.mem_cons_of_mem c hd)
    calc wordsFrom word (c :: s) = wordsFrom (c :: word) s := if_neg hc
      _ = wordsFrom (s.reverse ++ c :: word) [] := wordsFrom_of_free _ hs
      _ = wordsFrom ((c :: s).reverse ++ word) [] := by simp

theorem words_of_isWord (h : IsWord s) : words s = [s] := by
  rw [words, wordsFrom_of_free [] h.2, List.append_nil, wordsFrom, List.reverse_reverse,
    if_neg (by simpa using h.1)]

/-- The words of a text are words. -/
theorem isWord_of_mem_wordsFrom : ∀ {s word w : List Char}, (∀ c ∈ word, isBlank c = false) →
    w ∈ wordsFrom word s → IsWord w
  | [], word, w, hword, h => by
    rw [wordsFrom] at h
    split at h
    · cases h
    · next hne =>
      rw [List.mem_singleton.1 h]
      exact ⟨by simpa using hne, fun c hc => hword c (List.mem_reverse.1 hc)⟩
  | c :: s, word, w, hword, h => by
    rw [wordsFrom] at h
    split at h
    · split at h
      · exact isWord_of_mem_wordsFrom (by simp) h
      · next hne =>
        rcases List.mem_cons.1 h with rfl | hrest
        · exact ⟨by simpa using hne, fun c hc => hword c (List.mem_reverse.1 hc)⟩
        · exact isWord_of_mem_wordsFrom (by simp) hrest
    · next hc =>
      refine isWord_of_mem_wordsFrom (fun d hd => ?_) h
      rcases List.mem_cons.1 hd with rfl | hd
      · exact Bool.eq_false_iff.2 hc
      · exact hword d hd

theorem isWord_of_mem_words {w : List Char} (h : w ∈ words s) : IsWord w :=
  isWord_of_mem_wordsFrom (by simp) h

/-- Blank texts are those that have no words. -/
theorem wordsFrom_eq_nil_iff : ∀ {s word : List Char},
    wordsFrom word s = [] ↔ word = [] ∧ allBlank s = true
  | [], word => by simp [wordsFrom, allBlank]
  | c :: s, word => by
    rw [wordsFrom]
    split
    · next hc =>
      split
      · next hword => simp [wordsFrom_eq_nil_iff, allBlank, hc, List.isEmpty_iff.1 hword]
      · next hword => simpa using fun h => absurd (List.isEmpty_iff.2 h) hword
    · next hc => simp [wordsFrom_eq_nil_iff, allBlank, hc]

theorem words_eq_nil_iff : words s = [] ↔ allBlank s = true := by
  simp [words, wordsFrom_eq_nil_iff]

/-! ## Joined texts

Joined with a mark between them, texts can be taken apart again at the mark.  This is said of both
ways of cutting at once. -/

/-- **What is cut at a mark takes texts apart that are joined with it.** -/
theorem cut_intercalate {α : Type} {f : List Char → List α} {sep : String}
    (hsep : sep.toList = [mark]) (hf : ∀ s t : List Char, f (s ++ mark :: t) = f s ++ f t) :
    ∀ {pieces : List String}, pieces ≠ [] →
      f (sep.intercalate pieces).toList = pieces.flatMap fun piece => f piece.toList
  | [], h => absurd rfl h
  | [piece], _ => by rw [String.intercalate_singleton, List.flatMap_singleton]
  | piece :: next :: rest, _ => by
    have ih := cut_intercalate hsep hf (List.cons_ne_nil next rest)
    rw [String.intercalate_cons_cons, String.toList_append, String.toList_append, hsep,
      List.append_assoc, List.singleton_append, hf, ih]
    rfl

end Text
end Frontispiece
