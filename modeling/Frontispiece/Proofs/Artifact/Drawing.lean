import Frontispiece.Proofs.Artifact.Passes
import Frontispiece.Proofs.Artifact.Svg
import Frontispiece.Proofs.Artifact.Skeleton
import Frontispiece.Proofs.Markup.Mark
import Mathlib.Data.List.Basic

/-!
# What minifying keeps of a drawing

A drawing is minified by leaving out blank texts, and by taking all style elements out and putting
one in at the end.  Both are said of the marks of the drawing: each step keeps those of its kind and
the order of what it keeps.

## What is here

* `isDrawn`, `isSignificant` — the marks that are part of no style, and those that are no blank text
  or one that shows.
* `marks_dropBlankText`, `marks_withoutStyles` — either step as a filter on marks.
* `styles`, `styleText`, `stylesheet` — the style elements of a drawing, what each of them says, and
  what the merged one does.
* `mergeStyles_eq` — the merged drawing, whether it had styles or not.
* `tree_minified_ofTree` — the passes over the document of a drawing give the same.
* `minifySvg_drawing` — all of it together.
* `minifySvg_carries`, `exists_style_widened` — the merged style has no attributes, whatever the
  others had.

Both passes leave things out, one of them blank texts and the other style elements, and put one
style in.  So neither is described by what it does but by what is left: the marks of the drawing
that pass a test.  The tests are on marks with their tags around them, because whether a text is
dropped depends on where it stands.
-/

set_option autoImplicit false

namespace Frontispiece
namespace Artifact

open Drawing (Document)
open Markup (Tree Mark Token)

variable {path : List String} {tag : String} {attrs : Fields String} {children : List Tree}

/-! ## Marks that are kept

The marks of a drawing are its texts and the starts and ends of its elements, in order.  Dropping a
text or taking a style out leaves the order of all others, so both passes are filters on the list of
marks. -/

/-- Whether a mark is part of no style element. -/
def isDrawn (m : Mark) : Bool :=
  !m.within.contains "style"

/-- Whether a mark is no blank text, or one that shows. -/
def isSignificant (m : Mark) : Bool :=
  match m.token with
  | .text content => !Text.allBlank content.toList || m.within.head?.any textTags.contains
  | _ => true

mutual

/-- Blank texts that do not show are left out of an element, and nothing else. -/
theorem marks_dropBlankText (path : List String) (tag : String) (attrs : Fields String)
    (children : List Tree) : (dropBlankText (.element tag attrs children)).marks path
      = ((Tree.element tag attrs children).marks path).filter isSignificant := by
  rw [dropBlankText, Tree.marks, Tree.marks, List.filter_cons_of_pos rfl, List.filter_append,
    List.filter_singleton, ← marksIn_dropBlankTexts (tag :: path) children]
  rfl

/-- The marks that are left without blank texts are those that are significant. -/
theorem marksIn_dropBlankTexts (path : List String) : ∀ children : List Tree,
    Tree.marksIn path (dropBlankTexts (path.head?.any textTags.contains) children)
      = (Tree.marksIn path children).filter isSignificant
  | [] => rfl
  | .text content :: rest => by
    have ih := marksIn_dropBlankTexts path rest
    have hone : isSignificant ⟨path, .text content⟩
        = !(!path.head?.any textTags.contains && isBlankText (.text content)) := by
      rw [Bool.not_and, Bool.not_not, Bool.or_comm]
      rfl
    rw [dropBlankTexts, Tree.marksIn, Tree.marks, List.singleton_append, List.filter_cons, hone,
      ← ih]
    split
    · next hdrop => rw [hdrop]; rfl
    · next hkeep => rw [Bool.eq_false_iff.2 hkeep]; rfl
  | .element tag attrs children :: rest => by
    rw [dropBlankTexts, if_neg (by simp [isBlankText]), Tree.marksIn, Tree.marksIn,
      List.filter_append, marks_dropBlankText path tag attrs children,
      marksIn_dropBlankTexts path rest]

end

/-- No mark of a style element is drawn. -/
theorem filter_isDrawn_style (path : List String) (attrs : Fields String) (children : List Tree) :
    ((Tree.element "style" attrs children).marks path).filter isDrawn = [] := by
  refine List.filter_eq_nil_iff.2 fun m hm => ?_
  have hstyle := (Tree.suffix_of_mem_element path hm).mem List.mem_cons_self
  simp [isDrawn, hstyle]

theorem isDrawn_of_notMem (hpath : "style" ∉ path) (token : Token) :
    isDrawn ⟨path, token⟩ = true := by
  simp [isDrawn, hpath]

mutual

/-- The style elements are left out of a tree with all that is in them, and nothing else. -/
theorem marks_withoutStyles (path : List String) (hpath : "style" ∉ path) : ∀ tree : Tree,
    tree.tag? ≠ some "style" → (withoutStyles tree).marks path = (tree.marks path).filter isDrawn
  | .text content, _ => by
    rw [withoutStyles, Tree.marks, List.filter_cons_of_pos (isDrawn_of_notMem hpath _)]
    rfl
  | .element tag attrs children, htag => by
    have hinside : "style" ∉ tag :: path := by
      rw [List.mem_cons]
      exact fun h => h.elim (fun heq => htag (congrArg some heq.symm)) hpath
    rw [withoutStyles, Tree.marks, Tree.marks,
      List.filter_cons_of_pos (isDrawn_of_notMem hinside _), List.filter_append,
      List.filter_cons_of_pos (isDrawn_of_notMem hinside _),
      marksIn_withoutStylesOf (tag :: path) hinside children]
    rfl

/-- The marks that are left without stylesheets are those that are drawn. -/
theorem marksIn_withoutStylesOf (path : List String) (hpath : "style" ∉ path) :
    ∀ children : List Tree,
    Tree.marksIn path (withoutStylesOf children) = (Tree.marksIn path children).filter isDrawn
  | [] => rfl
  | child :: rest => by
    have ih := marksIn_withoutStylesOf path hpath rest
    rw [withoutStylesOf, Tree.marksIn, List.filter_append, ← ih]
    split
    · next hstyle =>
      cases child with
      | text content => cases hstyle
      | element tag attrs children =>
        obtain rfl : tag = "style" := by simpa [Tree.tag?] using hstyle
        rw [filter_isDrawn_style, List.nil_append]
    · next htag =>
      rw [Tree.marksIn, marks_withoutStyles path hpath child (by simpa using htag)]

end

/-! ## Styles

All styles are joined into one, which becomes the last child of the root.  Its text is made from the
texts of all of them, in their order, and there is no style if that says nothing. -/

/-- Whether a tree is a style element. -/
def isStyle (tree : Tree) : Bool :=
  tree.tag? == some "style"

/-- The style elements of a tree in order, those in other style elements among them. -/
def styles (tree : Tree) : List Tree :=
  tree.elements.filter isStyle

/-- The texts in a list of children, one after the other, blank ones left out. -/
def solidText (children : List Tree) : List Char :=
  children.flatMap fun
    | .text content => if Text.allBlank content.toList then [] else content.toList
    | .element .. => []

/-- What a style element says. -/
def styleText (element : Tree) : List Char :=
  solidText element.children

/-- What a style merged from some texts says, each of them on lines of its own. -/
def stylesheet (debug : Bool) (texts : List (List Char)) : List Char :=
  if debug then Text.trim (Text.join ['\n'] texts) else compactCss (Text.join ['\n'] texts)

/-- A style element that says something, or none. -/
def styleElement (css : List Char) : List Tree :=
  if css.isEmpty then [] else [.element "style" [] [.text (String.ofList css)]]

/-- In an element that does not show its texts, those that are not blank are left. -/
theorem directText_dropBlankTexts : ∀ children : List Tree,
    (directText (dropBlankTexts false children)).toList = solidText children
  | [] => rfl
  | .text content :: rest => by
    have ih := directText_dropBlankTexts rest
    rw [solidText, List.flatMap_cons, ← solidText, ← ih, dropBlankTexts, isBlankText]
    dsimp only
    cases Text.allBlank content.toList with
    | true => rfl
    | false => exact String.toList_append
  | .element _ _ _ :: rest => directText_dropBlankTexts rest

mutual

/-- The texts that are merged are those of the style elements. -/
theorem styleTexts_dropBlankText : ∀ tree : Tree,
    (styleTexts (dropBlankText tree)).map String.toList = (styles tree).map styleText
  | .text _ => rfl
  | .element tag attrs children => by
    have hinside := styleTextsOf_dropBlankTexts (textTags.contains tag) children
    rw [dropBlankText, styleTexts, List.map_append, hinside, styles, Tree.elements,
      List.filter_cons, isStyle, Tree.tag?]
    by_cases htag : tag = "style"
    · subst htag
      have hdirect := directText_dropBlankTexts children
      rw [if_pos (beq_self_eq_true _), if_pos (beq_self_eq_true _), List.map_cons, List.map_cons,
        List.map_nil, styleText, Tree.children, ← hdirect]
      rfl
    · rw [if_neg (by simpa using htag), if_neg (by simpa using htag)]
      rfl

/-- Stylesheets lose their blank texts only. -/
theorem styleTextsOf_dropBlankTexts (shown : Bool) : ∀ children : List Tree,
    (styleTextsOf (dropBlankTexts shown children)).map String.toList
      = ((Tree.elementsIn children).filter isStyle).map styleText
  | [] => rfl
  | child :: rest => by
    have ih := styleTextsOf_dropBlankTexts shown rest
    rw [dropBlankTexts, Tree.elementsIn, List.filter_append, List.map_append, ← ih]
    split
    · next hdrop =>
      cases child with
      | text content => rfl
      | element tag attrs children => simp [isBlankText] at hdrop
    · rw [styleTextsOf, List.map_append, styleTexts_dropBlankText child]
      rfl

end

mutual

/-- Without style elements there is nothing to leave out. -/
theorem withoutStyles_of_nil : ∀ {tree : Tree}, styleTexts tree = [] → withoutStyles tree = tree
  | .text _, _ => rfl
  | .element tag attrs children, h => by
    rw [styleTexts, List.append_eq_nil_iff] at h
    rw [withoutStyles, withoutStylesOf_of_nil h.2]

/-- There is nothing to take out where there are no stylesheets. -/
theorem withoutStylesOf_of_nil : ∀ {children : List Tree}, styleTextsOf children = [] →
    withoutStylesOf children = children
  | [], _ => rfl
  | child :: rest, h => by
    rw [styleTextsOf, List.append_eq_nil_iff] at h
    have htag : ¬(child.tag? == some "style") = true := by
      intro hstyle
      cases child with
      | text content => cases hstyle
      | element tag attrs children =>
        have hnil := h.1
        rw [styleTexts, if_pos (by simpa [Tree.tag?] using hstyle)] at hnil
        cases hnil
    rw [withoutStylesOf, if_neg htag, withoutStyles_of_nil h.1, withoutStylesOf_of_nil h.2]

end

/-- **A merged drawing**, also of one that has no style. -/
theorem mergeStyles_eq (debug : Bool) (tag : String) (attrs : Fields String)
    (children : List Tree) :
    mergeStyles debug (.element tag attrs children) = .element tag attrs (withoutStylesOf children
      ++ styleElement (stylesheet debug ((styleTextsOf children).map String.toList))) := by
  rw [mergeStyles]
  split
  · next hnone =>
    have hempty : stylesheet debug [] = [] := by cases debug <;> rfl
    rw [hnone, withoutStylesOf_of_nil hnone, List.map_nil, hempty]
    exact congrArg _ (List.append_nil children).symm
  · rw [stylesheet, styleElement]
    dsimp only
    generalize (if debug then _ else _ : List Char) = css
    cases css with
    | nil => exact congrArg _ (List.append_nil _).symm
    | cons c rest => rfl

mutual

theorem styles_withoutStyles : ∀ {tree : Tree}, isStyle tree = false →
    styles (withoutStyles tree) = []
  | .text _, _ => rfl
  | .element tag attrs children, h => by
    have hroot : isStyle (.element tag attrs (withoutStylesOf children)) = false := h
    rw [styles, withoutStyles, Tree.elements, List.filter_cons_of_neg (by simp [hroot]),
      elementsIn_withoutStylesOf children]

/-- No style element is left. -/
theorem elementsIn_withoutStylesOf : ∀ children : List Tree,
    (Tree.elementsIn (withoutStylesOf children)).filter isStyle = []
  | [] => rfl
  | child :: rest => by
    rw [withoutStylesOf]
    split
    · exact elementsIn_withoutStylesOf rest
    · next htag =>
      rw [Tree.elementsIn, List.filter_append, elementsIn_withoutStylesOf rest,
        List.append_nil]
      exact styles_withoutStyles (Bool.eq_false_iff.2 htag)

end

/-! ## What a stylesheet is not

The joined style is an element among others, and it must not get lost when a drawing is minified
again or read: it is not blank unless there was nothing in any style. -/

/-- What was trimmed is empty, or it begins with no blank. -/
theorem exists_trim_eq {s : List Char} (h : Text.trim s ≠ []) : ∃ c rest,
    Text.isBlank c = false ∧ Text.trim s = c :: Text.trimEnd rest := by
  rw [Text.trim] at h ⊢
  cases hstart : Text.trimStart s with
  | nil => exact absurd (by rw [hstart]; rfl) h
  | cons c rest =>
    have hc : Text.isBlank c = false := by
      have hhead := List.head?_dropWhile_not Text.isBlank s
      rw [Text.trimStart] at hstart
      rw [hstart] at hhead
      simpa using hhead
    exact ⟨c, rest, hc, trimEnd_cons hc rest⟩

/-- What was trimmed is empty, or it is not blank. -/
theorem allBlank_trim {s : List Char} (h : Text.trim s ≠ []) : Text.allBlank (Text.trim s) = false := by
  obtain ⟨c, rest, hc, htrim⟩ := exists_trim_eq h
  rw [htrim, Text.allBlank, List.all_cons, hc, Bool.false_and]

theorem allBlank_stylesheet {debug : Bool} {texts : List (List Char)}
    (h : stylesheet debug texts ≠ []) : Text.allBlank (stylesheet debug texts) = false := by
  cases debug with
  | true => exact allBlank_trim h
  | false => exact allBlank_trim h

/-! ## Minified drawings

With both passes as filters, a minified drawing has the marks of the drawing but for blank texts and
styles, and its one style says what the styles said. -/

theorem styles_styleElement (css : List Char) :
    (Tree.elementsIn (styleElement css)).filter isStyle = styleElement css := by
  rw [styleElement]
  split <;> rfl

/-- The merged style is the only one. -/
theorem styles_mergeStyles (debug : Bool) (htag : tag ≠ "style") (attrs : Fields String)
    (children : List Tree) : styles (mergeStyles debug (.element tag attrs children))
      = styleElement (stylesheet debug ((styleTextsOf children).map String.toList)) := by
  have hroot : ∀ children, ¬isStyle (.element tag attrs children) = true := by
    intro children
    simpa [isStyle, Tree.tag?] using htag
  rw [mergeStyles_eq, styles, Tree.elements, List.filter_cons_of_neg (hroot _),
    Tree.elementsIn_append, List.filter_append, elementsIn_withoutStylesOf, List.nil_append,
    styles_styleElement]

/-- The marks of a merged drawing are those outside its styles, and those of the merged one. -/
theorem marks_mergeStyles (debug : Bool) (htag : tag ≠ "style") (attrs : Fields String)
    (children : List Tree) : (mergeStyles debug (.element tag attrs children)).marks []
      = ⟨[tag], .start attrs⟩ :: ((Tree.marksIn [tag] children).filter isDrawn
        ++ Tree.marksIn [tag] (styleElement (stylesheet debug
          ((styleTextsOf children).map String.toList))) ++ [⟨[tag], .finish⟩]) := by
  have hinside : "style" ∉ [tag] := by simpa using htag.symm
  rw [mergeStyles_eq, Tree.marks, Tree.marksIn_append, marksIn_withoutStylesOf [tag] hinside]

theorem filter_isDrawn_styleElement (path : List String) (css : List Char) :
    (Tree.marksIn path (styleElement css)).filter isDrawn = [] := by
  rw [styleElement]
  split
  · rfl
  · rw [Tree.marksIn, Tree.marksIn, List.append_nil, filter_isDrawn_style]

/-- Outside of styles, merging them changes nothing. -/
theorem filter_isDrawn_mergeStyles (debug : Bool) (htag : tag ≠ "style") (attrs : Fields String)
    (children : List Tree) :
    ((mergeStyles debug (.element tag attrs children)).marks []).filter isDrawn
      = ((Tree.element tag attrs children).marks []).filter isDrawn := by
  rw [marks_mergeStyles debug htag, Tree.marks, List.filter_cons, List.filter_cons, List.filter_append,
    List.filter_append, List.filter_append, List.filter_filter, filter_isDrawn_styleElement,
    List.append_nil]
  simp only [Bool.and_self]

/-- The new stylesheet is significant, as it is not blank. -/
theorem isSignificant_styleElement {css : List Char} (hcss : css ≠ [] → Text.allBlank css = false)
    {m : Mark} (h : m ∈ Tree.marksIn path (styleElement css)) : isSignificant m = true := by
  rw [styleElement] at h
  split at h
  · cases h
  · next hne =>
    simp only [Tree.marksIn, Tree.marks, List.append_nil, List.singleton_append,
      List.mem_cons, List.not_mem_nil, or_false] at h
    rcases h with rfl | rfl | rfl
    · rfl
    · simp [isSignificant, hcss (by simpa using hne)]
    · rfl

/-- The drawing that is written when one is minified. -/
def minified (debug : Bool) (tree : Tree) : Tree :=
  mergeStyles debug (dropBlankText tree)

/-- Listing nodes and detaching them in the document of a drawing comes to the same. -/
theorem tree_minified_ofTree {s : List Char} {tree : Tree} (h : Markup.parseSvg s = .ok tree)
    (debug : Bool) :
    ((Document.ofTree tree).minified debug).tree Document.root = minified debug tree := by
  have hreadable := Markup.parseSvg_readable h
  obtain ⟨attrs, children, rfl⟩ := Markup.exists_of_parseSvg h
  rw [Document.tree_minified debug (Document.linked_ofTree _ _ _)
    (Document.wellFormed_ofTree hreadable) (Document.textsBare_ofTree _ _ _),
    Document.tree_ofTree hreadable, minified]

/-- What a minified drawing has of styles. -/
theorem styles_minified {s : List Char} {tree : Tree} (h : Markup.parseSvg s = .ok tree)
    (debug : Bool) : styles (minified debug tree)
      = styleElement (stylesheet debug ((styles tree).map styleText)) := by
  obtain ⟨attrs, children, rfl⟩ := Markup.exists_of_parseSvg h
  rw [minified, dropBlankText, styles_mergeStyles debug (by decide), styleTextsOf_dropBlankTexts]
  rfl

/-- **Minifying keeps the drawing.**

* The result is the same whether blank texts and styles are left out of the tree or listed and
  detached in the document.
* Outside of styles, the tags, the attributes and the texts are the same and in the same order, but
  for blank texts that do not show.
* No blank text is left but where it shows.
* There is one style element at the end of the drawing, or none when it would say nothing.  It has
  what the style elements of the drawing say, each on lines of its own, trimmed or compact. -/
theorem minifySvg_drawing {s : List Char} {tree : Tree} (h : Markup.parseSvg s = .ok tree)
    (debug : Bool) :
    minifySvg debug s = .ok ((minified debug tree).render debug) ∧
      ((Document.ofTree tree).minified debug).tree Document.root = minified debug tree ∧
      ((minified debug tree).marks []).filter isDrawn
        = (tree.marks []).filter (fun m => isDrawn m && isSignificant m) ∧
      (∀ m ∈ (minified debug tree).marks [], isSignificant m = true) ∧
      styles (minified debug tree)
        = styleElement (stylesheet debug ((styles tree).map styleText)) ∧
      styles (minified debug tree) <:+ (minified debug tree).children := by
  refine ⟨minifySvg_of_parseSvg h debug, tree_minified_ofTree h debug, ?_, ?_,
    styles_minified h debug, ?_⟩
  all_goals obtain ⟨attrs, children, rfl⟩ := Markup.exists_of_parseSvg h
  all_goals have htag : "svg" ≠ "style" := by decide
  · rw [minified, ← List.filter_filter, ← marks_dropBlankText, dropBlankText,
      filter_isDrawn_mergeStyles debug htag]
  · intro m hm
    rw [minified, dropBlankText, marks_mergeStyles debug htag, List.mem_cons, List.mem_append,
      List.mem_append, List.mem_singleton] at hm
    rcases hm with rfl | (hm | hm) | rfl
    · rfl
    · have hkept := (marksIn_dropBlankTexts ["svg"] children) ▸ (List.mem_filter.1 hm).1
      exact (List.mem_filter.1 hkept).2
    · exact isSignificant_styleElement allBlank_stylesheet hm
    · rfl
  · rw [minified, dropBlankText, styles_mergeStyles debug htag, mergeStyles_eq]
    exact List.suffix_append _ _

/-- A drawing with styles in a text, in another style and in a group, and with blank texts. -/
def layeredDrawing : String :=
  "<svg> <text>a <style>.a\x7b\x7d <style>.b\x7b\x7d</style></style> </text>\n<g><style/></g></svg>"

/-- Its styles are found wherever they are. -/
theorem layeredDrawing_minifySvg : ∃ tree, Markup.parseSvg layeredDrawing.toList = .ok tree ∧
    minifySvg false layeredDrawing.toList = .ok ((minified false tree).render false) ∧
    styles (minified false tree) = [.element "style" [] [.text ".a\x7b\x7d.b\x7b\x7d"]] ∧
    styles (minified false tree) <:+ (minified false tree).children := by
  have hparse : Markup.parseSvg layeredDrawing.toList = .ok (.element "svg" [] [.text " ",
      .element "text" [] [.text "a ", .element "style" [] [.text ".a\x7b\x7d ",
        .element "style" [] [.text ".b\x7b\x7d"]], .text " "],
      .text "\n", .element "g" [] [.element "style" [] []]]) := by rfl
  obtain ⟨hout, -, -, -, hstyles, hlast⟩ := minifySvg_drawing hparse false
  exact ⟨_, hparse, hout, hstyles.trans (by rfl), hlast⟩

/-! ## Attributes of styles

Attributes of style elements are dropped, and some of them limit what the style is for.  What is
carried over is stated for the attributes one by one, as the loss is for some of them only. -/

/-- Whether an element has all attributes of another. -/
def Carries (style element : Tree) : Prop :=
  ∀ attr ∈ element.attrs, attr ∈ style.attrs

/-- A minified drawing with plain names is read back. -/
theorem parseSvg_minified {s : List Char} {tree : Tree} (h : Markup.parseSvg s = .ok tree)
    (hplain : tree.Each Markup.Plain) (debug : Bool) :
    Markup.parseSvg ((minified debug tree).render debug).toList
      = .ok ((minified debug tree).layout debug).normal := by
  obtain ⟨hparse, htag⟩ := Markup.parseSvg_eq_ok_iff.1 h
  have hstyle : Markup.Writable "style" [] := .of_isName rfl (by simp) List.nodup_nil
  have heach : (minified debug tree).Each Markup.Writable :=
    mergeStyles_each hstyle debug (dropBlankText_each (writable_of_parse hparse hplain))
  have hsvg := (tag?_minified debug tree).trans htag
  refine Markup.parseSvg_eq_ok_iff.2 ⟨Markup.parse_rendered hsvg heach debug, ?_⟩
  rw [Tree.tag?_normal, Tree.tag?_layout]
  exact hsvg

theorem map_head_styles (tree : Tree) :
    (styles tree).map Tree.head
      = (tree.elements.map Tree.head).filter fun head => head.1 == some "style" := by
  rw [styles, List.filter_map]
  rfl

/-- The styles of a drawing that is read back have the attributes that were written. -/
theorem attrs_styles_layout (pretty : Bool) (tree : Tree) :
    (styles (tree.layout pretty).normal).map Tree.attrs = (styles tree).map Tree.attrs := by
  have hheads : (styles (tree.layout pretty).normal).map Tree.head
      = (styles tree).map Tree.head := by
    rw [map_head_styles, map_head_styles, Tree.elements_layout]
  have hattrs := congrArg (List.map Prod.snd) hheads
  rwa [List.map_map, List.map_map] at hattrs

/-- **The merged style has no attributes.**  It says what all style elements of the drawing say, and
has their attributes just when none of those that say something has any.  The same holds of what is
read back, when the names of the drawing are plain. -/
theorem minifySvg_carries {s : List Char} {tree : Tree} (h : Markup.parseSvg s = .ok tree)
    (debug : Bool) :
    minifySvg debug s = .ok ((minified debug tree).render debug) ∧
      (∀ style ∈ styles (minified debug tree),
        style.children = [.text (String.ofList (stylesheet debug ((styles tree).map styleText)))] ∧
        ((∀ e ∈ styles tree, styleText e ≠ [] → Carries style e) ↔
          ∀ e ∈ styles tree, styleText e ≠ [] → e.attrs = [])) ∧
      (tree.Each Markup.Plain → ∃ again,
        Markup.parseSvg ((minified debug tree).render debug).toList = .ok again ∧
        (styles again).map Tree.attrs = (styles (minified debug tree)).map Tree.attrs) := by
  refine ⟨minifySvg_of_parseSvg h debug, fun style hstyle => ?_,
    fun hplain => ⟨_, parseSvg_minified h hplain debug, attrs_styles_layout debug _⟩⟩
  rw [styles_minified h, styleElement] at hstyle
  split at hstyle
  · cases hstyle
  · obtain rfl := List.mem_singleton.1 hstyle
    refine ⟨rfl, fun hcarries e he htext => ?_, fun hnone e he htext => ?_⟩
    · exact List.eq_nil_iff_forall_not_mem.2 fun attr hattr =>
        List.not_mem_nil (hcarries e he htext attr hattr)
    · intro attr hattr
      rw [hnone e he htext] at hattr
      exact hattr

/-- A drawing with two styles, of which the one that has an attribute says nothing. -/
def idleDrawing : String :=
  "<svg><style>a\x7b\x7d</style><g><style media=\"print\"> </style></g></svg>"

/-- Its merged style has all attributes that it needs. -/
theorem idleDrawing_minifySvg : ∃ tree, Markup.parseSvg idleDrawing.toList = .ok tree ∧
    (styles (minified true tree)).length = 1 ∧
    ∀ style ∈ styles (minified true tree), ∀ e ∈ styles tree, styleText e ≠ [] →
      Carries style e := by
  have hparse : Markup.parseSvg idleDrawing.toList = .ok (.element "svg" []
      [.element "style" [] [.text "a\x7b\x7d"],
        .element "g" [] [.element "style" [("media", "print")] [.text " "]]]) := by rfl
  obtain ⟨-, hcarries, -⟩ := minifySvg_carries hparse true
  refine ⟨_, hparse, by rw [styles_minified hparse]; rfl, fun style hstyle => ?_⟩
  refine (hcarries style hstyle).2.2 fun e he htext => ?_
  rcases List.mem_pair.1 he with rfl | rfl
  · rfl
  · exact absurd (by decide) htext

/-- A drawing whose only style is for print. -/
def printedDrawing : String :=
  "<svg><style media=\"print\">a\x7bx:y\x7d</style></svg>"

/-- **A style for some media becomes one for all.** -/
theorem exists_style_widened : ¬∀ (s : List Char) (debug : Bool) (tree : Tree) (out : String)
    (again : Tree), Markup.parseSvg s = .ok tree → minifySvg debug s = .ok out →
    Markup.parseSvg out.toList = .ok again →
    ∀ style ∈ styles again, ∀ e ∈ styles tree, styleText e ≠ [] → Carries style e := by
  intro h
  have hparse : Markup.parseSvg printedDrawing.toList = .ok (.element "svg" []
      [.element "style" [("media", "print")] [.text "a\x7bx:y\x7d"]]) := by rfl
  have hmerged : minified false (.element "svg" []
      [.element "style" [("media", "print")] [.text "a\x7bx:y\x7d"]])
      = .element "svg" [] [.element "style" [] [.text "a\x7bx:y\x7d"]] := by
    have hcss : stylesheet false ["a\x7bx:y\x7d".toList] = "a\x7bx:y\x7d".toList := by
      decide +kernel
    rw [minified, dropBlankText, mergeStyles_eq]
    change Tree.element "svg" [] ([] ++ styleElement (stylesheet false ["a\x7bx:y\x7d".toList])) = _
    rw [hcss]
    rfl
  have hout := minifySvg_of_parseSvg hparse false
  rw [← minified, hmerged] at hout
  have hagain : Markup.parseSvg ((Tree.element "svg" []
      [.element "style" [] [.text "a\x7bx:y\x7d"]]).render false).toList
      = .ok (.element "svg" [] [.element "style" [] [.text "a\x7bx:y\x7d"]]) := by rfl
  have hcarries := h _ _ _ _ _ hparse hout hagain (.element "style" [] [.text "a\x7bx:y\x7d"])
    (by simp [styles, Tree.elements, Tree.elementsIn, isStyle, Tree.tag?])
    (.element "style" [("media", "print")] [.text "a\x7bx:y\x7d"])
    (by simp [styles, Tree.elements, Tree.elementsIn, isStyle, Tree.tag?])
    (by decide) ("media", "print") List.mem_cons_self
  cases hcarries

end Artifact
end Frontispiece
