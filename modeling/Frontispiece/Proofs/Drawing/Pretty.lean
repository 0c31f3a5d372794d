import Frontispiece.Artifact.Svg
import Frontispiece.Proofs.Drawing.RoundTrip
import Frontispiece.Proofs.Markup.Pretty

/-!
# Pretty drawings

Pretty printing puts indentation between the children of an element, unless there is a text among
them.  Where blank texts do not show, this is nothing to be seen.  But an element that shows texts
may have elements only, such as the lines of a text, and then the indentation is shown as well.

Whether an element inside of one that shows texts shows them too can be taken either way: drawings
are minified as if it did not, and are painted as if it did.  `deep` tells the two readings apart.

## What is here

* `Tree.withoutBlanks` — a tree without the blank texts that do not show.
* `Tree.IsInline` — no element in which texts show is indented.
* `Tree.withoutBlanks_spaced_iff` — pretty printing cannot be seen just when the tree is inline, by
  induction on the tree.
* `Reachable.parse_pretty` — what is read back of the two written forms of a document.
* `exists_blank_added` — the two differ for some documents.

The theorem is an equivalence, so that it also says which documents are changed by being written
prettily.  Its proof goes by induction on the tree in its indented form, where each element is
either indented, and then has elements only, or not.  In the first case the indentation is in front
of the first child, so it is seen if it shows; in the second the children are where they were.
-/

set_option autoImplicit false

namespace Frontispiece
namespace Markup
namespace Tree

open Artifact (textTags isBlankText dropBlankText dropBlankTexts)

/-! ## Texts that show

Whether a blank text shows depends on the element that it is in, and by one of the two readings on
those around it.  So blank texts are dropped from a tree with a flag at hand that says whether texts
show. -/

/-- Whether texts show in an element of a tag, when `shown` says whether they show around it. -/
def shows (deep shown : Bool) (tag : String) : Bool :=
  textTags.contains tag || (deep && shown)

mutual

/-- The tree without the blank texts that do not show. -/
def withoutBlanks (deep shown : Bool) : Tree → Tree
  | .text content => .text content
  | .element tag attrs children =>
    .element tag attrs (withoutBlanksIn deep (shows deep shown tag) children)

/-- The same for the children of an element, of which `shown` tells whether texts show in it. -/
def withoutBlanksIn (deep shown : Bool) : List Tree → List Tree
  | [] => []
  | child :: rest =>
    if !shown && isBlankText child then withoutBlanksIn deep shown rest
    else withoutBlanks deep shown child :: withoutBlanksIn deep shown rest

end

mutual

/-- An element in which texts show has no children, or a text among them. -/
def IsInline (deep shown : Bool) : Tree → Prop
  | .text _ => True
  | .element tag _ children =>
    (shows deep shown tag = true → children = [] ∨ ∃ child ∈ children, child.isElement = false) ∧
      AllInline deep (shows deep shown tag) children

/-- The same for children. -/
def AllInline (deep shown : Bool) : List Tree → Prop
  | [] => True
  | child :: rest => child.IsInline deep shown ∧ AllInline deep shown rest

end

/-! ## Pretty printing

Indentation is a blank text, which is dropped again except in elements that show it.  So the tree
with indentation and the tree without it differ just where such an element has been indented, and
that is looked for by induction on the tree. -/

variable {deep shown : Bool} {depth : Nat}

theorem withoutBlanksIn_append (trees more : List Tree) :
    withoutBlanksIn deep shown (trees ++ more)
      = withoutBlanksIn deep shown trees ++ withoutBlanksIn deep shown more := by
  induction trees with
  | nil => rfl
  | cons child rest ih =>
    rw [List.cons_append, withoutBlanksIn, withoutBlanksIn, ih]
    split
    · rfl
    · rfl

theorem isElement_spaced (depth : Nat) (tree : Tree) :
    (tree.spaced depth).isElement = tree.isElement := by
  cases tree <;> rfl

theorem isElement_normal (tree : Tree) : tree.normal.isElement = tree.isElement := by
  cases tree <;> rfl

section

variable {child : Tree} (h : child.isElement = true)

include h

/-- An element is no blank text. -/
theorem withoutBlanksIn_element (rest : List Tree) :
    withoutBlanksIn deep shown (child :: rest)
      = child.withoutBlanks deep shown :: withoutBlanksIn deep shown rest := by
  cases child with
  | text content => cases h
  | element tag attrs children => simp [withoutBlanksIn, isBlankText]

theorem normalAll_element (rest : List Tree) :
    normalAll (child :: rest) = child.normal :: normalAll rest := by
  cases child with
  | text content => cases h
  | element tag attrs children => rw [normalAll, normal]

theorem glue_element (s : String) (rest : List Tree) :
    glue s (child :: rest) = textTrees s ++ child :: rest := by
  cases child with
  | text content => cases h
  | element tag attrs children => rfl

end

/-- There is always something to indentation. -/
theorem textTrees_indentation (depth : Nat) :
    textTrees (String.ofList (indentation depth)) = [indentText depth] := by
  have hne : String.ofList (indentation depth) ≠ "" := by simp [indentation]
  rw [textTrees, if_neg hne, indentText]

/-- Indentation before an element stays a text of its own. -/
theorem normalAll_indented {child : Tree} (h : child.isElement = true) (rest : List Tree) :
    normalAll (indentText depth :: child :: rest)
      = indentText depth :: child.normal :: normalAll rest := by
  have hnormal : child.normal.isElement = true := (isElement_normal child).trans h
  rw [indentText, normalAll, normalAll_element h, glue_element hnormal, textTrees_indentation]
  rfl

theorem normalAll_indentText (depth : Nat) : normalAll [indentText depth] = [indentText depth] := by
  rw [indentText, normalAll, normalAll, ← indentText, ← textTrees_indentation]
  exact List.append_nil _

/-- Indentation is blank. -/
theorem isBlankText_indentText (depth : Nat) : isBlankText (indentText depth) = true := by
  rw [indentText, isBlankText, String.toList_ofList, Text.allBlank, List.all_eq_true]
  intro c hc
  rcases List.mem_cons.1 hc with rfl | hc
  · rfl
  · obtain ⟨copy, hcopy, hc⟩ := List.mem_flatten.1 hc
    rw [List.eq_of_mem_replicate hcopy] at hc
    have hspace : c = ' ' := by simpa using hc
    rw [hspace]
    rfl

theorem withoutBlanksIn_indentText (trees : List Tree) :
    withoutBlanksIn deep false (indentText depth :: trees) = withoutBlanksIn deep false trees := by
  rw [withoutBlanksIn, isBlankText_indentText]
  rfl

/-- Indentation that shows is seen: it comes before the first element. -/
theorem withoutBlanksIn_indented_ne {child : Tree} (h : child.isElement = true)
    (rest more : List Tree) :
    withoutBlanksIn deep true (normalAll (indentText depth :: child.spaced depth :: more))
      ≠ withoutBlanksIn deep true (normalAll (child :: rest)) := by
  have hspaced : (child.spaced depth).isElement = true := (isElement_spaced depth child).trans h
  rw [normalAll_indented hspaced, normalAll_element h]
  cases child with
  | text content => cases h
  | element tag attrs children => simp [withoutBlanksIn, withoutBlanks, normal, indentText]

mutual

/-- **Pretty printing cannot be seen just when no element is indented in which texts show.** -/
theorem withoutBlanks_spaced_iff (deep : Bool) : ∀ (tree : Tree) (shown : Bool) (depth : Nat),
    (tree.spaced depth).normal.withoutBlanks deep shown = tree.normal.withoutBlanks deep shown
      ↔ tree.IsInline deep shown
  | .text _, _, _ => ⟨fun _ => trivial, fun _ => rfl⟩
  | .element tag attrs [], shown, depth => by
    simp [spaced, spacedIn, IsInline, AllInline]
  | .element tag attrs (child :: children), shown, depth => by
    rw [spaced, normal, normal, withoutBlanks, withoutBlanks, element.injEq, IsInline]
    simp only [true_and, List.isEmpty_cons, Bool.not_false, Bool.true_and]
    generalize shows deep shown tag = inside
    cases hindent : (child :: children).all isElement with
    | false =>
      have hplain := withoutBlanksIn_plain_iff deep (child :: children) inside (depth + 1) ""
      have htext : ∃ c ∈ child :: children, c.isElement = false := by
        simpa using List.all_eq_false.1 hindent
      rw [glue_empty, glue_empty] at hplain
      rw [if_neg Bool.false_ne_true, List.append_nil, hplain, and_iff_right fun _ => .inr htext]
    | true =>
      have hall : ∀ c ∈ child :: children, c.isElement = true := List.all_eq_true.1 hindent
      rw [if_pos rfl]
      cases inside with
      | false =>
        rw [withoutBlanksIn_indented_iff deep (child :: children) hall depth (depth + 1),
          and_iff_right (by simp)]
      | true =>
        refine iff_of_false (withoutBlanksIn_indented_ne (hall child List.mem_cons_self) _ _) ?_
        rintro ⟨hinline, -⟩
        rcases hinline rfl with hnil | ⟨c, hc, htext⟩
        · cases hnil
        · rw [hall c hc] at htext
          cases htext

/-- Children that are not indented, behind a text. -/
theorem withoutBlanksIn_plain_iff (deep : Bool) : ∀ (trees : List Tree) (shown : Bool)
    (depth : Nat) (s : String),
    withoutBlanksIn deep shown (glue s (normalAll (spacedIn false depth trees)))
        = withoutBlanksIn deep shown (glue s (normalAll trees))
      ↔ AllInline deep shown trees
  | [], _, _, _ => ⟨fun _ => trivial, fun _ => rfl⟩
  | .text content :: rest, shown, depth, s => by
    have ih := withoutBlanksIn_plain_iff deep rest shown depth (s ++ content)
    simpa [spacedIn, spaced, normalAll, glue_glue, AllInline, IsInline] using ih
  | .element tag attrs children :: rest, shown, depth, s => by
    have hchild := withoutBlanks_spaced_iff deep (.element tag attrs children) shown depth
    have hrest := withoutBlanksIn_plain_iff deep rest shown depth ""
    rw [glue_empty, glue_empty] at hrest
    rw [spacedIn, if_neg Bool.false_ne_true, List.nil_append, normalAll_element rfl,
      normalAll_element rfl, glue_element rfl, glue_element rfl, withoutBlanksIn_append,
      withoutBlanksIn_append, List.append_cancel_left_eq, withoutBlanksIn_element rfl,
      withoutBlanksIn_element rfl, List.cons.injEq, hchild, hrest, AllInline]

/-- Elements that are indented where texts do not show. -/
theorem withoutBlanksIn_indented_iff (deep : Bool) : ∀ trees : List Tree,
    (∀ c ∈ trees, c.isElement = true) → ∀ outer depth : Nat,
    withoutBlanksIn deep false (normalAll (spacedIn true depth trees ++ [indentText outer]))
        = withoutBlanksIn deep false (normalAll trees)
      ↔ AllInline deep false trees
  | [], _, outer, depth => by
    rw [spacedIn, List.nil_append, normalAll_indentText, withoutBlanksIn_indentText, normalAll]
    exact ⟨fun _ => trivial, fun _ => rfl⟩
  | child :: rest, h, outer, depth => by
    have helement : child.isElement = true := h child List.mem_cons_self
    have hspaced := (isElement_spaced depth child).trans helement
    have hchild := withoutBlanks_spaced_iff deep child false depth
    have hrest := withoutBlanksIn_indented_iff deep rest
      (fun c hc => h c (List.mem_cons_of_mem _ hc)) outer depth
    rw [spacedIn, if_pos rfl, List.cons_append, List.nil_append, List.cons_append,
      List.cons_append, normalAll_indented hspaced, withoutBlanksIn_indentText,
      normalAll_element helement, withoutBlanksIn_element ((isElement_normal _).trans hspaced),
      withoutBlanksIn_element ((isElement_normal _).trans helement), List.cons.injEq, hchild, hrest,
      AllInline]

end

end Tree
end Markup

namespace Drawing
namespace Document

open Markup (Tree)

variable {doc : Document}

/-- The written forms of a document are read back, the pretty one with its indentation. -/
theorem Reachable.parse_layout (h : doc.Reachable) (hnamed : doc.Named) (pretty : Bool) :
    Markup.parse (doc.render pretty).toList = .ok ((doc.tree root).layout pretty).normal := by
  have hwell : doc.WellFormed := h.wellFormed
  have hwritable := (hwell.tree_named hnamed root hwell.root_lt).each_writable
  have helement := hwell.isElement_root
  cases hroot : doc.tree root with
  | text content =>
    rw [hroot] at helement
    cases helement
  | element tag attrs children =>
    rw [hroot] at hwritable
    rw [render, hroot]
    exact Markup.parse_rendered rfl hwritable pretty

/-- **What pretty printing changes.**  The two written forms of a document with names for tags and
attributes are read back.  Without the blank texts that do not show, by either reading, what is read
is the same just when no element in which texts show has elements for children and nothing else. -/
theorem Reachable.parse_pretty (h : doc.Reachable) (hnamed : doc.Named) :
    ∃ plain pretty, Markup.parse (doc.render false).toList = .ok plain ∧
      Markup.parse (doc.render true).toList = .ok pretty ∧
      ∀ deep : Bool, pretty.withoutBlanks deep false = plain.withoutBlanks deep false
        ↔ (doc.tree root).IsInline deep false :=
  ⟨_, _, h.parse_layout hnamed false, h.parse_layout hnamed true,
    fun deep => Tree.withoutBlanks_spaced_iff deep (doc.tree root) false 0⟩

/-- A group with a circle, and a text of which a part is set apart. -/
def captioned : Document :=
  let (doc, group) := (withRoot "svg").appendElement root "g"
  let (doc, _) := doc.appendElement group "circle"
  let (doc, caption) := doc.appendElement root "text"
  let (doc, _) := doc.appendText caption " "
  let (doc, part) := doc.appendElement caption "tspan"
  (doc.appendText part "one").1

/-- Its indentation cannot be seen. -/
theorem captioned_parse_pretty : captioned.Reachable ∧ captioned.Named ∧
    ∃ plain pretty, Markup.parse (captioned.render false).toList = .ok plain ∧
      Markup.parse (captioned.render true).toList = .ok pretty ∧
      ∀ deep : Bool, pretty.withoutBlanks deep false = plain.withoutBlanks deep false := by
  have hgroup := @Reachable.appendElement _ (.withRoot "svg") root (by decide) "g"
  have hcircle := @Reachable.appendElement _ hgroup 1 (by decide) "circle"
  have hcaption := @Reachable.appendElement _ hcircle root (by decide) "text"
  have hblank := @Reachable.appendText _ hcaption 3 (by decide) " "
  have hpart := @Reachable.appendElement _ hblank 3 (by decide) "tspan"
  have hreachable : captioned.Reachable := @Reachable.appendText _ hpart 5 (by decide) "one"
  have hnamed : captioned.Named := by with_unfolding_all decide
  have htree : captioned.tree root = .element "svg" [] [.element "g" [] [.element "circle" [] []],
      .element "text" [] [.text " ", .element "tspan" [] [.text "one"]]] := by cbv
  obtain ⟨plain, pretty, hplain, hpretty, hsame⟩ := hreachable.parse_pretty hnamed
  refine ⟨hreachable, hnamed, plain, pretty, hplain, hpretty, fun deep => (hsame deep).2 ?_⟩
  rw [htree]
  cases deep <;> simp [Tree.IsInline, Tree.AllInline, Tree.shows, Artifact.textTags, Tree.isElement]

/-- A text with one line. -/
def lined : Document :=
  let (doc, caption) := (withRoot "svg").appendElement root "text"
  (doc.appendElement caption "tspan").1

/-- **Pretty printing adds a blank text that shows to some documents**, by either reading. -/
theorem exists_blank_added : ∃ doc : Document, doc.Reachable ∧ doc.Named ∧
    ∃ plain pretty, Markup.parse (doc.render false).toList = .ok plain ∧
      Markup.parse (doc.render true).toList = .ok pretty ∧
      pretty.withoutBlanks true false ≠ plain.withoutBlanks true false ∧
      pretty.withoutBlanks false false ≠ plain.withoutBlanks false false := by
  have hcaption := @Reachable.appendElement _ (.withRoot "svg") root (by decide) "text"
  have hreachable : lined.Reachable := @Reachable.appendElement _ hcaption 1 (by decide) "tspan"
  have hnamed : lined.Named := by with_unfolding_all decide
  have htree : lined.tree root
      = .element "svg" [] [.element "text" [] [.element "tspan" [] []]] := by cbv
  have hshown (deep : Bool) : ((lined.tree root).layout true).normal.withoutBlanks deep false
      ≠ ((lined.tree root).layout false).normal.withoutBlanks deep false := fun hsame => by
    have hinline := (Tree.withoutBlanks_spaced_iff deep (lined.tree root) false 0).1 hsame
    rw [htree] at hinline
    simp [Tree.IsInline, Tree.AllInline, Tree.shows, Artifact.textTags, Tree.isElement] at hinline
  exact ⟨lined, hreachable, hnamed, _, _, hreachable.parse_layout hnamed false,
    hreachable.parse_layout hnamed true, hshown true, hshown false⟩

end Document
end Drawing
end Frontispiece
