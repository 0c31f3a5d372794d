import Frontispiece.Proofs.Artifact.Drawing
import Mathlib.Data.List.Flatten
import Mathlib.Data.List.Forall2

/-!
# What the texts of a drawing say

A text element says what all texts in it say, one after the other, at any depth and outside of
styles.  Minifying leaves out blank texts by the element that they stand directly in, so a space
between two words is lost when it stands alone in an element that is not known to show it, such as
a link in a text.

## What is here

* `textElements`, `shownText` — the text elements of a drawing, and what each of them says.
* `textElements_dropBlankText`, `textElements_withoutStyles`, `textElements_normal` — no step changes
  which text elements there are.
* `minifySvg_texts` — a minified text element says the same just when its blank texts all show.
* `exists_space_lost` — not so for all text elements.

The text of an element may stand deep inside of it, in elements that are no text elements
themselves, and there the pass over blank texts does not know that it is shown.  So the condition is
about all blank texts below an element and not only about its children.  It is exact because what is
dropped has characters: something that was said is said no more.
-/

set_option autoImplicit false

namespace Frontispiece
namespace Artifact

open Markup (Tree Mark Token)

/-! ## Text elements

The elements that show text, wherever they stand in a drawing.  Both passes work on children lists,
so this is a list over all elements with what each of them holds. -/

mutual

/-- The text elements of a tree in order, those in style elements left out. -/
def textElements : Tree → List Tree
  | .text _ => []
  | .element tag attrs children =>
    if tag = "style" then []
    else (if tag = "text" then [.element tag attrs children] else []) ++ textElementsIn children

/-- The text elements of children in order. -/
def textElementsIn : List Tree → List Tree
  | [] => []
  | child :: rest => textElements child ++ textElementsIn rest

end

/-- The characters of a mark that is a text. -/
def textOf (m : Mark) : List Char :=
  match m.token with
  | .text content => content.toList
  | _ => []

/-- What a tree says: the characters of all texts in it, other than those in style elements. -/
def shownText (tree : Tree) : List Char :=
  ((tree.marks []).filter isDrawn).flatMap textOf

/-- Every text in an element, other than those in style elements, is not blank, or it stands where
blank text shows, or it has no characters. -/
def SpacesShow (tree : Tree) : Prop :=
  ∀ m ∈ tree.marks [], isDrawn m = true → isSignificant m = false → textOf m = []

instance (tree : Tree) : Decidable (SpacesShow tree) :=
  inferInstanceAs (Decidable (∀ m ∈ tree.marks [], _))

theorem textElementsIn_append (trees more : List Tree) :
    textElementsIn (trees ++ more) = textElementsIn trees ++ textElementsIn more := by
  induction trees with
  | nil => rfl
  | cons child rest ih => rw [List.cons_append, textElementsIn, textElementsIn, ih,
      List.append_assoc]

mutual

/-- Elements for texts are what they are called. -/
theorem tag?_of_mem_textElements : ∀ {tree e : Tree}, e ∈ textElements tree →
    e.tag? = some "text"
  | .text _, _, h => by cases h
  | .element tag attrs children, e, h => by
    rw [textElements] at h
    split at h
    · cases h
    rcases List.mem_append.1 h with hself | hinside
    · split at hself
      · next htag =>
        obtain rfl := List.mem_singleton.1 hself
        exact congrArg some htag
      · cases hself
    · exact tag?_of_mem_textElementsIn hinside

theorem tag?_of_mem_textElementsIn : ∀ {trees : List Tree} {e : Tree}, e ∈ textElementsIn trees →
    e.tag? = some "text"
  | [], _, h => by cases h
  | _ :: _, _, h =>
    (List.mem_append.1 h).elim tag?_of_mem_textElements tag?_of_mem_textElementsIn

end

/-- Where a tree that changes below its root has its text elements. -/
theorem textElements_of_children {f : Tree → Tree} {tag : String} {attrs : Fields String}
    {children changed : List Tree}
    (hself : f (.element tag attrs children) = .element tag attrs changed)
    (hinside : textElementsIn changed = (textElementsIn children).map f) :
    textElements (.element tag attrs changed)
      = (textElements (.element tag attrs children)).map f := by
  rw [textElements, textElements, hinside]
  split
  · rfl
  split
  · rw [List.map_append, List.map_singleton, hself]
  · rfl

mutual

theorem textElements_dropBlankText : ∀ tree : Tree,
    textElements (dropBlankText tree) = (textElements tree).map dropBlankText
  | .text _ => rfl
  | .element tag attrs children => by
    rw [dropBlankText]
    exact textElements_of_children (by rw [dropBlankText])
      (textElementsIn_dropBlankTexts (textTags.contains tag) children)

/-- Elements for texts stay when blank texts are dropped, and lose their own blank texts only. -/
theorem textElementsIn_dropBlankTexts (shown : Bool) : ∀ trees : List Tree,
    textElementsIn (dropBlankTexts shown trees) = (textElementsIn trees).map dropBlankText
  | [] => rfl
  | child :: rest => by
    have ih := textElementsIn_dropBlankTexts shown rest
    rw [dropBlankTexts, textElementsIn, List.map_append, ← ih]
    split
    · next hdrop =>
      cases child with
      | text content => rfl
      | element tag attrs children => simp [isBlankText] at hdrop
    · rw [textElementsIn, textElements_dropBlankText child]

end

mutual

theorem textElements_withoutStyles : ∀ tree : Tree,
    textElements (withoutStyles tree) = (textElements tree).map withoutStyles
  | .text _ => rfl
  | .element tag attrs children => by
    rw [withoutStyles]
    exact textElements_of_children (by rw [withoutStyles]) (textElementsIn_withoutStylesOf children)

/-- Elements for texts stay when stylesheets are taken out. -/
theorem textElementsIn_withoutStylesOf : ∀ trees : List Tree,
    textElementsIn (withoutStylesOf trees) = (textElementsIn trees).map withoutStyles
  | [] => rfl
  | child :: rest => by
    have ih := textElementsIn_withoutStylesOf rest
    rw [withoutStylesOf, textElementsIn, List.map_append, ← ih]
    split
    · next hstyle =>
      cases child with
      | text content => cases hstyle
      | element tag attrs children =>
        rw [textElements, if_pos (by simpa [Tree.tag?] using hstyle), List.map_nil, List.nil_append]
    · rw [textElementsIn, textElements_withoutStyles child]

end

/-- The text elements of a minified drawing are those of the drawing. -/
theorem textElements_minified {s : List Char} {tree : Tree} (h : Markup.parseSvg s = .ok tree)
    (debug : Bool) : textElements (minified debug tree)
      = (textElements tree).map fun e => withoutStyles (dropBlankText e) := by
  obtain ⟨attrs, children, rfl⟩ := Markup.exists_of_parseSvg h
  have hstyle : ∀ css, textElementsIn (styleElement css) = [] := by
    intro css
    rw [styleElement]
    split <;> rfl
  have hroot : ∀ children, textElements (.element "svg" attrs children)
      = textElementsIn children := by
    intro children
    rw [textElements, if_neg (by decide), if_neg (by decide), List.nil_append]
  rw [minified, dropBlankText, mergeStyles_eq, hroot, hroot, textElementsIn_append, hstyle,
    List.append_nil, textElementsIn_withoutStylesOf, textElementsIn_dropBlankTexts, List.map_map]
  rfl

/-! ## What is said

What an element shows is the text in it without styles.  It stays as it is if and only if no blank
text in it is dropped that would have shown. -/

/-- Leaving out items leaves out nothing of what they have just when these have nothing. -/
theorem flatMap_filter_eq_iff {α β : Type} (f : α → List β) (p : α → Bool) (l : List α) :
    (l.filter p).flatMap f = l.flatMap f ↔ ∀ x ∈ l, p x = false → f x = [] := by
  induction l with
  | nil => simp
  | cons x l ih =>
    rw [List.forall_mem_cons, ← ih, List.flatMap_cons]
    cases hx : p x with
    | true =>
      rw [List.filter_cons_of_pos hx, List.flatMap_cons, List.append_cancel_left_eq]
      simp
    | false =>
      rw [List.filter_cons_of_neg (by simp [hx])]
      constructor
      · intro h
        -- what is left of the rest is no longer than the rest
        have hle : ((l.filter p).flatMap f).length ≤ (l.flatMap f).length :=
          (List.filter_sublist.flatMap f).length_le
        have hlength := congrArg List.length h
        rw [List.length_append] at hlength
        have hnil : f x = [] := List.eq_nil_of_length_eq_zero (by omega)
        exact ⟨fun _ => hnil, by rw [h, hnil, List.nil_append]⟩
      · rintro ⟨hnil, heq⟩
        rw [hnil rfl, heq, List.nil_append]

theorem shownText_withoutStyles {tree : Tree} (h : tree.tag? ≠ some "style") :
    shownText (withoutStyles tree) = shownText tree := by
  rw [shownText, shownText, marks_withoutStyles [] (by simp) tree h, List.filter_filter]
  simp only [Bool.and_self]

theorem shownText_dropBlankText (tag : String) (attrs : Fields String) (children : List Tree) :
    shownText (dropBlankText (.element tag attrs children))
      = shownText (.element tag attrs children) ↔ SpacesShow (.element tag attrs children) := by
  rw [shownText, shownText, marks_dropBlankText, List.filter_filter]
  simp only [Bool.and_comm (isDrawn _)]
  rw [← List.filter_filter, flatMap_filter_eq_iff, SpacesShow]
  simp only [List.mem_filter, and_imp]

/-! ## Reading back

The minified drawing is written and read, and reading joins texts that stand next to each other.
Joined or not, they say the same. -/

/-- A text in front adds no element. -/
theorem textElementsIn_glue (s : String) (trees : List Tree) :
    textElementsIn (Markup.glue s trees) = textElementsIn trees := by
  have hother : ∀ trees, textElementsIn (Markup.textTrees s ++ trees) = textElementsIn trees := by
    intro trees
    rw [Markup.textTrees]
    split <;> rfl
  rw [Markup.glue.eq_def]
  split
  · rfl
  · exact hother _

mutual

theorem textElements_normal : ∀ tree : Tree,
    textElements tree.normal = (textElements tree).map Tree.normal
  | .text _ => rfl
  | .element tag attrs children => by
    rw [Tree.normal]
    exact textElements_of_children (by rw [Tree.normal]) (textElementsIn_normalAll children)

/-- Elements for texts stay when texts next to each other are joined. -/
theorem textElementsIn_normalAll : ∀ trees : List Tree,
    textElementsIn (Tree.normalAll trees) = (textElementsIn trees).map Tree.normal
  | [] => by rw [Tree.normalAll]; rfl
  | .text content :: rest => by
    rw [Tree.normalAll, textElementsIn_glue, textElementsIn_normalAll rest]
    rfl
  | .element tag attrs children :: rest => by
    have helement := textElements_normal (.element tag attrs children)
    rw [Tree.normal] at helement
    rw [Tree.normalAll, textElementsIn, textElementsIn, List.map_append, helement,
      textElementsIn_normalAll rest]

end

/-- What children say where they stand. -/
def saidIn (path : List String) (trees : List Tree) : List Char :=
  ((Tree.marksIn path trees).filter isDrawn).flatMap textOf

theorem saidIn_cons (path : List String) (tree : Tree) (rest : List Tree) :
    saidIn path (tree :: rest) = saidIn path [tree] ++ saidIn path rest := by
  rw [saidIn, saidIn, saidIn, Tree.marksIn, Tree.marksIn, Tree.marksIn, List.append_nil,
    List.filter_append, List.flatMap_append]

theorem saidIn_text (path : List String) (content : String) :
    saidIn path [.text content] = if path.contains "style" then [] else content.toList := by
  rw [saidIn, Tree.marksIn, Tree.marks, Tree.marksIn, List.append_nil, List.filter_singleton,
    isDrawn]
  cases path.contains "style" with
  | true => rfl
  | false => exact List.append_nil _

/-- What is said in an element is said below its tag. -/
theorem saidIn_element (path : List String) (tag : String) (attrs : Fields String)
    (children : List Tree) :
    saidIn path [.element tag attrs children] = saidIn (tag :: path) children := by
  have hedge : ∀ token, textOf ⟨tag :: path, token⟩ = [] →
      ([⟨tag :: path, token⟩].filter isDrawn).flatMap textOf = [] := by
    intro token htoken
    rw [List.filter_singleton]
    cases isDrawn ⟨tag :: path, token⟩ with
    | true => simp [htoken]
    | false => rfl
  rw [saidIn, saidIn, Tree.marksIn, Tree.marks, Tree.marksIn, List.append_nil,
    ← List.singleton_append, List.filter_append, List.filter_append, List.flatMap_append,
    List.flatMap_append, hedge _ rfl, hedge _ rfl, List.nil_append, List.append_nil]

/-- A text in front is said before the rest, whether it is joined with the next text or not. -/
theorem saidIn_glue (path : List String) (s : String) (trees : List Tree) :
    saidIn path (Markup.glue s trees) = saidIn path [.text s] ++ saidIn path trees := by
  have hother : ∀ trees, saidIn path (Markup.textTrees s ++ trees)
      = saidIn path [.text s] ++ saidIn path trees := by
    intro trees
    rw [Markup.textTrees]
    split
    · next hs =>
      rw [hs, saidIn_text]
      split <;> rfl
    · exact saidIn_cons path _ trees
  rw [Markup.glue.eq_def]
  split
  · next t rest =>
    rw [saidIn_cons path _ rest, saidIn_cons path (.text t) rest, ← List.append_assoc, saidIn_text,
      saidIn_text, saidIn_text, String.toList_append]
    split <;> rfl
  · exact hother _

mutual

/-- Texts made one say what they said. -/
theorem saidIn_normal (path : List String) : ∀ tree : Tree,
    saidIn path [tree.normal] = saidIn path [tree]
  | .text _ => rfl
  | .element tag attrs children => by
    rw [Tree.normal, saidIn_element, saidIn_element, saidIn_normalAll (tag :: path) children]

/-- To join texts does not change what is said. -/
theorem saidIn_normalAll (path : List String) : ∀ trees : List Tree,
    saidIn path (Tree.normalAll trees) = saidIn path trees
  | [] => by rw [Tree.normalAll]
  | .text content :: rest => by
    rw [Tree.normalAll, saidIn_glue, saidIn_normalAll path rest,
      saidIn_cons path (.text content) rest]
  | .element tag attrs children :: rest => by
    have helement := saidIn_normal path (.element tag attrs children)
    rw [Tree.normal] at helement
    rw [Tree.normalAll, saidIn_cons, saidIn_cons path (.element tag attrs children) rest, helement,
      saidIn_normalAll path rest]

end

theorem shownText_normal (tree : Tree) : shownText tree.normal = shownText tree := by
  have hone : ∀ tree, shownText tree = saidIn [] [tree] := by
    intro tree
    rw [shownText, saidIn, Tree.marksIn, Tree.marksIn, List.append_nil]
  rw [hone, hone, saidIn_normal]

/-! ## Minified texts

Whether the text of an element changes is thus a question about the blank texts below it, and an
element without elements in it has none that matter. -/

/-- **A minified text element says what it said just when its blank texts show.**  These are the
text elements outside of styles, each compared with the one that it has become.  When the names of
the drawing are plain, what is read back says the same. -/
theorem minifySvg_texts {s : List Char} {tree : Tree} (h : Markup.parseSvg s = .ok tree) :
    minifySvg false s = .ok ((minified false tree).render false) ∧
      List.Forall₂ (fun e e' => shownText e' = shownText e ↔ SpacesShow e)
        (textElements tree) (textElements (minified false tree)) ∧
      (tree.Each Markup.Plain → ∃ again,
        Markup.parseSvg ((minified false tree).render false).toList = .ok again ∧
        (textElements again).map shownText
          = (textElements (minified false tree)).map shownText) := by
  refine ⟨minifySvg_of_parseSvg h false, ?_, fun hplain =>
    ⟨_, parseSvg_minified h hplain false, ?_⟩⟩
  · rw [textElements_minified h, List.forall₂_map_right_iff, List.forall₂_same]
    intro e he
    have htag := tag?_of_mem_textElements he
    cases e with
    | text content => cases htag
    | element tag attrs children =>
      obtain rfl := Option.some.inj htag
      rw [shownText_withoutStyles (by simp [dropBlankText, Tree.tag?]), shownText_dropBlankText]
  · rw [Tree.layout, if_neg Bool.false_ne_true, textElements_normal, List.map_map]
    exact List.map_congr_left fun e _ => shownText_normal e

/-- A drawing with a text in which a space stands alone in a span, and one in a style. -/
def spacedDrawing : String :=
  "<svg> <text>one<tspan> </tspan><a>two</a><style> </style></text></svg>"

/-- Its text is kept. -/
theorem spacedDrawing_minifySvg : ∃ tree, Markup.parseSvg spacedDrawing.toList = .ok tree ∧
    (textElements (minified false tree)).map shownText = ["one two".toList] := by
  have hparse : Markup.parseSvg spacedDrawing.toList = .ok (.element "svg" [] [.text " ",
      .element "text" [] [.text "one", .element "tspan" [] [.text " "],
        .element "a" [] [.text "two"], .element "style" [] [.text " "]]]) := by rfl
  obtain ⟨-, hsame, -⟩ := minifySvg_texts hparse
  refine ⟨_, hparse, ?_⟩
  obtain ⟨after, rest, hfirst, hrest, heq⟩ := List.forall₂_cons_left_iff.1 hsame
  obtain rfl := List.forall₂_nil_left_iff.1 hrest
  rw [heq, List.map_singleton, hfirst.2 (by decide)]
  rfl

/-- A drawing with a text in which a space stands alone in a link. -/
def linkedDrawing : String :=
  "<svg><text>one<a> </a>two</text></svg>"

/-- **A space between two words is lost.** -/
theorem exists_space_lost : ¬∀ (s : List Char) (tree : Tree) (out : String) (again : Tree),
    Markup.parseSvg s = .ok tree → minifySvg false s = .ok out →
    Markup.parseSvg out.toList = .ok again →
    (textElements again).map shownText = (textElements tree).map shownText := by
  intro h
  have hparse : Markup.parseSvg linkedDrawing.toList = .ok (.element "svg" []
      [.element "text" [] [.text "one", .element "a" [] [.text " "], .text "two"]]) := by rfl
  have hout : minifySvg false linkedDrawing.toList
      = .ok "<svg><text>one<a/>two</text></svg>" := by decide +kernel
  have hagain : Markup.parseSvg "<svg><text>one<a/>two</text></svg>".toList
      = .ok (.element "svg" []
        [.element "text" [] [.text "one", .element "a" [] [], .text "two"]]) := by rfl
  have hlost := h _ _ _ _ hparse hout hagain
  revert hlost
  decide

end Artifact
end Frontispiece
