import Frontispiece.Proofs.Artifact.Drawing
import Frontispiece.Proofs.Drawing.Pretty

/-!
# Drawings that are read back

A drawing that was written is read when another takes it in.  What is read differs from what was
written only in what writing does not show: texts that stand side by side have become one, texts
without characters are gone, and where blank text shows the indentation has become part of it.  This
can be seen in one place.  An element that was left with texts without characters, such as an empty
section of characters in a text makes, has another form without them.

## What is here

* `reread` — what is read back of a written tree, without blank texts that do not show.
  `dropBlankText_laidOut` says so for trees that have no other blank texts.
* `isHollow`, `Filled` — elements that have another form once texts without characters are gone.
* `chars_reread_iff` — **what is read back is written as before just when no element is hollow**, by
  induction on the tree.  What comes behind it is part of the statement, so that one child after the
  other can be taken off.
* `styleTexts_reread` — what the styles say is read back.

Writing and reading back is not the identity: indentation is read as texts, texts that touch become
one, and empty texts are gone.  `reread` says in one function what comes of all this and of dropping
blank texts afterwards.  It goes down the tree with the text that stands before the children in
hand, in the way in which the reader goes through what was written.

What is written of `reread` is compared with what was written before it by looking at the first
characters.  Where an element has children that all vanish, it was written with an end tag and is
now written without, and there the two differ; everywhere else they do not.
-/

set_option autoImplicit false

namespace Frontispiece
namespace Artifact

open Markup (Tree glue textTrees)

variable {tag : String} {attrs : Fields String} {children trees : List Tree} {child : Tree}

/-! ## Without blank texts

A drawing that is minified has no blank text left that would be dropped.  This is told by the number
of texts, as a pass can only take away. -/

theorem dropBlankTexts_append (shown : Bool) (trees more : List Tree) :
    dropBlankTexts shown (trees ++ more) = dropBlankTexts shown trees ++ dropBlankTexts shown more := by
  rw [Drawing.Document.dropBlankTexts_eq, Drawing.Document.dropBlankTexts_eq,
    Drawing.Document.dropBlankTexts_eq, List.filter_append, List.map_append]

/-- Children stay when each of them does. -/
theorem dropBlankTexts_cons_iff {shown : Bool} :
    dropBlankTexts shown (child :: trees) = child :: trees ↔
      (shown = true ∨ isBlankText child = false) ∧ dropBlankText child = child ∧
        dropBlankTexts shown trees = trees := by
  rw [dropBlankTexts]
  split
  · next hblank =>
    refine iff_of_false (fun heq => ?_) fun h => ?_
    · have hle : (dropBlankTexts shown trees).length ≤ trees.length := by
        rw [Drawing.Document.dropBlankTexts_eq, List.length_map]
        exact List.length_filter_le _ _
      rw [heq, List.length_cons] at hle
      exact Nat.not_succ_le_self _ hle
    · rw [Bool.and_eq_true, Bool.not_eq_true'] at hblank
      rcases h.1 with hshown | hsolid
      · exact Bool.false_ne_true (hblank.1.symm.trans hshown)
      · exact Bool.false_ne_true (hsolid.symm.trans hblank.2)
  · next hkept =>
    have hsolid : shown = true ∨ isBlankText child = false := by
      cases shown with
      | true => exact .inl rfl
      | false => exact .inr (by simpa using hkept)
    rw [List.cons.injEq, and_iff_right hsolid]

/-! ## What is read back

What is written for people has line feeds and blanks that were in no text, and reading makes texts
of them.  `reread` says which: they stand around the children of an element that is indented. -/

/-- Whether an element is written with indentation that shows. -/
def indentShows (pretty : Bool) (tag : String) (children : List Tree) : Bool :=
  pretty && !children.isEmpty && children.all Tree.isElement && textTags.contains tag

mutual

/-- What is read back of a tree that was written at a depth, without blank texts that do not show.
Texts that stand side by side are one, and indentation is left where it shows. -/
def reread (pretty : Bool) (depth : Nat) : Tree → Tree
  | .text content => .text content
  | .element tag attrs children =>
    .element tag attrs (rereadIn pretty (indentShows pretty tag children) (depth + 1) "" children
      ++ if indentShows pretty tag children then [Tree.indentText depth] else [])

/-- The same for children behind a text, with the indentation before each of them if `indent` is
set. -/
def rereadIn (pretty indent : Bool) (depth : Nat) (read : String) : List Tree → List Tree
  | [] => textTrees read
  | child :: rest =>
    match child with
    | .text content => rereadIn pretty indent depth (read ++ content) rest
    | .element .. =>
      textTrees read ++ (if indent then [Tree.indentText depth] else [])
        ++ reread pretty depth child :: rereadIn pretty indent depth "" rest

end

variable {pretty indent shown : Bool} {depth : Nat} {read : String}

theorem rereadIn_text (content : String) (rest : List Tree) :
    rereadIn pretty indent depth read (.text content :: rest)
      = rereadIn pretty indent depth (read ++ content) rest := rfl

theorem rereadIn_element (h : child.isElement = true) (rest : List Tree) :
    rereadIn pretty indent depth read (child :: rest)
      = textTrees read ++ (if indent then [Tree.indentText depth] else [])
        ++ reread pretty depth child :: rereadIn pretty indent depth "" rest := by
  cases child with
  | text content => cases h
  | element tag attrs children => rfl

theorem isElement_reread (pretty : Bool) (depth : Nat) (tree : Tree) :
    (reread pretty depth tree).isElement = tree.isElement := by
  cases tree <;> rfl

/-- A tree at a depth with the texts of the form in which it is written. -/
def laidOut (pretty : Bool) (depth : Nat) (tree : Tree) : Tree :=
  if pretty then tree.spaced depth else tree

theorem isElement_laidOut (pretty : Bool) (depth : Nat) (tree : Tree) :
    (laidOut pretty depth tree).isElement = tree.isElement := by
  cases pretty with
  | false => rfl
  | true => exact Tree.isElement_spaced depth tree

theorem spacedIn_false (depth : Nat) (trees : List Tree) :
    Tree.spacedIn false depth trees = trees.map (Tree.spaced depth) := by
  induction trees with
  | nil => rfl
  | cons child rest ih =>
    rw [Tree.spacedIn, ih]
    rfl

/-- An element that is not indented keeps its children. -/
theorem laidOut_plain (h : (pretty && !children.isEmpty && children.all Tree.isElement) = false) :
    laidOut pretty depth (.element tag attrs children)
      = .element tag attrs (children.map (laidOut pretty (depth + 1))) := by
  cases pretty with
  | false => exact congrArg (Tree.element tag attrs) (List.map_id _).symm
  | true =>
    rw [Bool.true_and] at h
    rw [laidOut, if_pos rfl, Tree.spaced, h, spacedIn_false]
    exact congrArg _ (List.append_nil _)

/-- A text that was read is left where it shows or is not blank. -/
theorem dropBlankTexts_textTrees (h : shown = true ∨ read = "" ∨ Text.allBlank read.toList = false)
    (rest : List Tree) :
    dropBlankTexts shown (textTrees read ++ rest) = textTrees read ++ dropBlankTexts shown rest := by
  rw [textTrees]
  split
  · rfl
  · next hread =>
    have hkept : ¬(!shown && isBlankText (.text read)) = true := by
      rcases h with rfl | hnone | hsolid
      · simp
      · exact absurd hnone hread
      · simp [isBlankText, hsolid]
    rw [List.singleton_append, dropBlankTexts, if_neg hkept]
    rfl

theorem dropBlankTexts_element (h : child.isElement = true) (rest : List Tree) :
    dropBlankTexts shown (child :: rest) = dropBlankText child :: dropBlankTexts shown rest := by
  cases child with
  | text content => cases h
  | element tag attrs children => rw [dropBlankTexts, if_neg (by simp [isBlankText])]

theorem dropBlankTexts_indentText (rest : List Tree) :
    dropBlankTexts shown (Tree.indentText depth :: rest)
      = (if shown then [Tree.indentText depth] else []) ++ dropBlankTexts shown rest := by
  rw [dropBlankTexts, Tree.isBlankText_indentText]
  cases shown <;> rfl

mutual

/-- **What is read back of a tree without blank texts that do not show.** -/
theorem dropBlankText_laidOut (pretty : Bool) : ∀ (tree : Tree) (depth : Nat),
    dropBlankText tree = tree →
    dropBlankText (laidOut pretty depth tree).normal = reread pretty depth tree
  | .text content, depth, _ => by cases pretty <;> rfl
  | .element tag attrs children, depth, h => by
    rw [dropBlankText, Tree.element.injEq] at h
    have hchildren : dropBlankTexts (textTags.contains tag) children = children := h.2.2
    cases hindent : pretty && !children.isEmpty && children.all Tree.isElement with
    | false =>
      have hplain := dropBlankTexts_laidOut pretty children (depth + 1) "" hchildren (.inr (.inl rfl))
      rw [Markup.glue_empty] at hplain
      rw [laidOut_plain hindent, Tree.normal, dropBlankText, hplain, reread, indentShows, hindent]
      exact congrArg _ (List.append_nil _).symm
    | true =>
      obtain ⟨⟨rfl, hsome⟩, hall⟩ : (pretty = true ∧ (!children.isEmpty) = true) ∧
          children.all Tree.isElement = true := by simpa using hindent
      have hspaced := dropBlankTexts_spaced children depth (depth + 1) (List.all_eq_true.1 hall)
        hchildren
      rw [laidOut, if_pos rfl, Tree.spaced, hsome, hall, Tree.normal, dropBlankText]
      rw [Bool.and_self, if_pos rfl, hspaced, reread, indentShows, hsome, hall]
      rfl

/-- The same for children that are not indented, behind a text. -/
theorem dropBlankTexts_laidOut {shown : Bool} (pretty : Bool) : ∀ (trees : List Tree) (depth : Nat)
    (read : String), dropBlankTexts shown trees = trees →
    (shown = true ∨ read = "" ∨ Text.allBlank read.toList = false) →
    dropBlankTexts shown (glue read (Tree.normalAll (trees.map (laidOut pretty depth))))
      = rereadIn pretty false depth read trees
  | [], depth, read, _, hread => by
    have hnone := dropBlankTexts_textTrees hread []
    rw [List.append_nil, dropBlankTexts, List.append_nil] at hnone
    rw [List.map_nil, Tree.normalAll, glue, List.append_nil, hnone]
    · rfl
    · nofun
  | .text content :: rest, depth, read, h, hread => by
    obtain ⟨hcontent, -, hrest⟩ := dropBlankTexts_cons_iff.1 h
    have hlaid : laidOut pretty depth (.text content) = .text content := by cases pretty <;> rfl
    have hboth : shown = true ∨ read ++ content = "" ∨
        Text.allBlank (read ++ content).toList = false := by
      refine hcontent.imp_right fun hsolid => .inr ?_
      rw [String.toList_append, Text.allBlank, List.all_append]
      exact Bool.and_eq_false_iff.2 (.inr hsolid)
    rw [List.map_cons, hlaid, Tree.normalAll, Markup.glue_glue,
      dropBlankTexts_laidOut pretty rest depth (read ++ content) hrest hboth, rereadIn_text]
  | .element tag attrs children :: rest, depth, read, h, hread => by
    obtain ⟨-, hchild, hrest⟩ := dropBlankTexts_cons_iff.1 h
    have hlaid := isElement_laidOut pretty depth (.element tag attrs children)
    have htree := dropBlankText_laidOut pretty (.element tag attrs children) depth hchild
    have htrees := dropBlankTexts_laidOut pretty rest depth "" hrest (.inr (.inl rfl))
    rw [Markup.glue_empty] at htrees
    rw [List.map_cons, Tree.normalAll_element hlaid,
      Tree.glue_element ((Tree.isElement_normal _).trans hlaid), dropBlankTexts_textTrees hread,
      dropBlankTexts_element ((Tree.isElement_normal _).trans hlaid), htree, htrees,
      rereadIn_element rfl, if_neg Bool.false_ne_true, List.append_nil]

/-- The same for children that are indented. -/
theorem dropBlankTexts_spaced {shown : Bool} : ∀ (trees : List Tree) (outer depth : Nat),
    (∀ child ∈ trees, child.isElement = true) → dropBlankTexts shown trees = trees →
    dropBlankTexts shown (Tree.normalAll (Tree.spacedIn true depth trees ++ [Tree.indentText outer]))
      = rereadIn true shown depth "" trees ++ if shown then [Tree.indentText outer] else []
  | [], outer, depth, _, _ => by
    rw [Tree.spacedIn, List.nil_append, Tree.normalAll_indentText, dropBlankTexts_indentText]
    exact List.append_nil _
  | child :: rest, outer, depth, hall, h => by
    obtain ⟨-, hchild, hrest⟩ := dropBlankTexts_cons_iff.1 h
    have helement : child.isElement = true := hall child List.mem_cons_self
    have hspaced := (Tree.isElement_spaced depth child).trans helement
    have htree : dropBlankText (child.spaced depth).normal = reread true depth child :=
      dropBlankText_laidOut true child depth hchild
    have htrees := dropBlankTexts_spaced rest outer depth
      (fun other hother => hall other (List.mem_cons_of_mem _ hother)) hrest
    rw [Tree.spacedIn, if_pos rfl, List.cons_append, List.nil_append, List.cons_append,
      List.cons_append, Tree.normalAll_indented hspaced, dropBlankTexts_indentText,
      dropBlankTexts_element ((Tree.isElement_normal _).trans hspaced), htree, htrees,
      rereadIn_element helement, List.append_assoc]
    rfl

end

/-! ## What is written again

An element without children is written in another way than one whose only child is an empty text,
though the two look the same when read back.  Apart from these hollow elements, writing what was
read gives what was there. -/

/-- Whether a tree is a text without characters. -/
def isEmptyText : Tree → Bool
  | .text content => content.isEmpty
  | .element .. => false

/-- Whether children are texts without characters and nothing else, or, with `pretty`, nothing else
but elements. -/
def isHollow (pretty : Bool) (children : List Tree) : Bool :=
  children.any isEmptyText && children.all fun child => isEmptyText child || pretty && child.isElement

/-- None of the elements is hollow. -/
def Filled (pretty : Bool) (elements : List Tree) : Prop :=
  ∀ e ∈ elements, isHollow pretty e.children = false

instance (elements : List Tree) : Decidable (Filled pretty elements) :=
  inferInstanceAs (Decidable (∀ e ∈ elements, isHollow pretty e.children = false))

theorem all_isElement_textTrees : (textTrees read).all Tree.isElement = true ↔ read = "" := by
  rw [textTrees]
  split
  · next h => simp [h]
  · next h => simp [h, Tree.isElement]

/-- Nothing is read back from children without text and without elements, and only from them. -/
theorem rereadIn_eq_nil_iff : ∀ {trees : List Tree} {read : String},
    rereadIn pretty false depth read trees = [] ↔ read = "" ∧ ∀ child ∈ trees, isEmptyText child = true
  | [], read => by simp [rereadIn, textTrees]
  | .text content :: rest, read => by
    rw [rereadIn_text, rereadIn_eq_nil_iff]
    simp [isEmptyText, and_assoc]
  | .element tag attrs children :: rest, read => by
    rw [rereadIn_element rfl]
    simp [isEmptyText]

/-- Children are read back as elements alone if there was no text that says anything between
them. -/
theorem all_isElement_rereadIn : ∀ (trees : List Tree) (read : String),
    (rereadIn pretty false depth read trees).all Tree.isElement = true ↔
      read = "" ∧ ∀ child ∈ trees, (isEmptyText child || child.isElement) = true
  | [], read => by
    rw [rereadIn, all_isElement_textTrees]
    simp
  | .text content :: rest, read => by
    rw [rereadIn_text, all_isElement_rereadIn]
    simp [isEmptyText, and_assoc, Tree.isElement]
  | .element tag attrs children :: rest, read => by
    rw [rereadIn_element rfl, if_neg Bool.false_ne_true, List.append_nil, List.all_append,
      List.all_cons, isElement_reread, Bool.and_eq_true, all_isElement_textTrees, Bool.and_eq_true,
      all_isElement_rereadIn rest]
    simp [Tree.isElement]

/-- The start tag of an element up to its end. -/
def startChars (tag : String) (attrs : Fields String) : List Char :=
  '<' :: tag.toList ++ Markup.attrChars attrs

/-- The end tag of an element. -/
def endChars (tag : String) : List Char :=
  '<' :: '/' :: tag.toList ++ ['>']

theorem chars_empty : Tree.chars pretty depth (.element tag attrs [])
    = startChars tag attrs ++ ['/', '>'] := rfl

theorem chars_some (h : children ≠ []) (hindent : (pretty && children.all Tree.isElement) = indent) :
    Tree.chars pretty depth (.element tag attrs children)
      = startChars tag attrs ++ '>' :: (Tree.childChars pretty indent (depth + 1) children
        ++ ((if indent then Markup.indentation depth else []) ++ endChars tag)) := by
  rw [Tree.chars]
  dsimp only
  rw [if_neg (by simpa using h), hindent]
  simp [startChars, endChars]

/-- An element is written with its start tag first. -/
theorem head?_chars (h : child.isElement = true) : (Tree.chars pretty depth child).head? = some '<' := by
  cases child with
  | text content => cases h
  | element tag attrs children =>
    rw [Tree.chars]
    dsimp only
    split <;> rfl

/-- Elements among texts without characters are written with a start tag first. -/
theorem head?_childChars (pretty : Bool) (depth : Nat) : ∀ trees : List Tree,
    (∀ child ∈ trees, (isEmptyText child || child.isElement) = true) →
    (∃ child ∈ trees, isEmptyText child = false) →
    (Tree.childChars pretty false depth trees).head? = some '<'
  | [], _, h => by simp at h
  | child :: rest, hall, hsome => by
    rw [Tree.childChars, if_neg Bool.false_ne_true, List.nil_append]
    cases hchild : isEmptyText child with
    | false =>
      have helement : child.isElement = true := by
        simpa [hchild] using hall child List.mem_cons_self
      rw [List.head?_append, head?_chars helement, Option.some_or]
    | true =>
      cases child with
      | element tag attrs children => cases hchild
      | text content =>
        rw [Tree.chars, String.isEmpty_iff.1 hchild]
        refine head?_childChars pretty depth rest
          (fun other hother => hall other (List.mem_cons_of_mem _ hother)) ?_
        simpa [hchild] using hsome

/-- A text that has been read is written with its special characters escaped, and an empty one not
at all. -/
theorem childChars_textTrees (pretty : Bool) (depth : Nat) (read : String) :
    Tree.childChars pretty false depth (textTrees read) = Markup.escapeText read.toList := by
  rw [textTrees]
  split
  · next h =>
    rw [h]
    rfl
  · rw [Tree.childChars, Tree.chars, Tree.childChars, List.append_nil]
    rfl

/-- Indentation is written once, as a text that was read or anew. -/
theorem childChars_indentText (shown : Bool) (depth outer : Nat) :
    Tree.childChars true (!shown) depth (if shown then [Tree.indentText outer] else [])
      ++ (if !shown then Markup.indentation outer else []) = Markup.indentation outer := by
  cases shown with
  | false => rfl
  | true => simp [Tree.childChars, Tree.chars_indentText]

theorem filled_cons {e : Tree} {elements : List Tree} : Filled pretty (e :: elements) ↔
    isHollow pretty e.children = false ∧ Filled pretty elements :=
  List.forall_mem_cons

theorem filled_append {elements more : List Tree} :
    Filled pretty (elements ++ more) ↔ Filled pretty elements ∧ Filled pretty more :=
  List.forall_mem_append

theorem filled_element : Filled pretty (Tree.element tag attrs children).elements ↔
    isHollow pretty children = false ∧ Filled pretty (Tree.elementsIn children) :=
  filled_cons

theorem isHollow_iff : isHollow pretty children = true ↔
    (∃ child ∈ children, isEmptyText child = true) ∧
      ∀ child ∈ children, (isEmptyText child || pretty && child.isElement) = true := by
  simp [isHollow]

/-- Behind the start tag of an element, what is in it and its end are all that counts. -/
theorem startChars_append_iff {inside finish again finish' after before : List Char} :
    startChars tag attrs ++ '>' :: (again ++ finish') ++ after
        = startChars tag attrs ++ '>' :: (inside ++ finish) ++ before
      ↔ again ++ (finish' ++ after) = inside ++ (finish ++ before) := by
  simp

/-- An element that is not indented. -/
theorem reread_plain (hindent : (pretty && children.all Tree.isElement) = false) :
    reread pretty depth (.element tag attrs children)
      = .element tag attrs (rereadIn pretty false (depth + 1) "" children) := by
  have hshows : indentShows pretty tag children = false := by
    rw [indentShows, Bool.and_right_comm pretty, hindent]
    rfl
  rw [reread, hshows]
  exact congrArg _ (List.append_nil _)

/-- An element that is indented. -/
theorem reread_indented (hsome : children ≠ []) (hall : children.all Tree.isElement = true) :
    reread true depth (.element tag attrs children)
      = .element tag attrs (rereadIn true (textTags.contains tag) (depth + 1) "" children
        ++ if textTags.contains tag then [Tree.indentText depth] else []) := by
  have hshows : indentShows true tag children = textTags.contains tag := by
    rw [indentShows, hall]
    simp [hsome]
  rw [reread, hshows]

/-- An element that is hollow is written in another way when it is read back. -/
theorem chars_reread_hollow {after before : List Char}
    (hindent : (pretty && children.all Tree.isElement) = false)
    (hhollow : isHollow pretty children = true) :
    Tree.chars pretty depth (reread pretty depth (.element tag attrs children)) ++ after
      ≠ Tree.chars pretty depth (.element tag attrs children) ++ before := by
  obtain ⟨⟨child, hchild, hempty⟩, hall⟩ := isHollow_iff.1 hhollow
  have hsome : children ≠ [] := List.ne_nil_of_mem hchild
  rw [reread_plain hindent, chars_some hsome hindent]
  cases hagain : rereadIn pretty false (depth + 1) "" children with
  | nil =>
    -- the element closes itself now
    rw [chars_empty]
    intro heq
    simp at heq
  | cons first rest =>
    -- an element is among the children, and they are indented now
    have hnotall : ¬∀ child ∈ children, isEmptyText child = true := fun hempties => by
      rw [rereadIn_eq_nil_iff.2 ⟨rfl, hempties⟩] at hagain
      cases hagain
    obtain ⟨element, helement, hsolid⟩ : ∃ child ∈ children, isEmptyText child = false := by
      simpa using hnotall
    obtain rfl : pretty = true := by
      have h := hall element helement
      rw [hsolid, Bool.false_or, Bool.and_eq_true] at h
      exact h.1
    have hindented : (true && (first :: rest).all Tree.isElement) = true := by
      rw [← hagain, Bool.true_and, all_isElement_rereadIn]
      exact ⟨rfl, hall⟩
    have hhead := head?_childChars true (depth + 1) children hall ⟨element, helement, hsolid⟩
    rw [chars_some (List.cons_ne_nil _ _) hindented, Ne, startChars_append_iff]
    intro heq
    have hline : (Tree.childChars true true (depth + 1) (first :: rest)).head? = some '\n' := by
      rw [Tree.childChars]
      rfl
    have hfirst := congrArg List.head? heq
    simp only [List.head?_append, hline, hhead, Option.some_or] at hfirst
    exact absurd hfirst (by decide)

/-- An element that is not indented, when this holds of its children. -/
theorem chars_reread_plain_iff {after before : List Char} (hsome : children ≠ [])
    (hindent : (pretty && children.all Tree.isElement) = false)
    (hchildren : ∀ after before : List Char,
      Tree.childChars pretty false (depth + 1) (rereadIn pretty false (depth + 1) "" children) ++ after
          = Tree.childChars pretty false (depth + 1) children ++ before
        ↔ Filled pretty (Tree.elementsIn children) ∧ after = before) :
    Tree.chars pretty depth (reread pretty depth (.element tag attrs children)) ++ after
        = Tree.chars pretty depth (.element tag attrs children) ++ before
      ↔ Filled pretty (Tree.element tag attrs children).elements ∧ after = before := by
  rw [filled_element]
  cases hhollow : isHollow pretty children with
  | true => exact iff_of_false (chars_reread_hollow hindent hhollow) (by simp)
  | false =>
    rw [← Bool.not_eq_true, isHollow_iff, not_and] at hhollow
    have hagain : rereadIn pretty false (depth + 1) "" children ≠ [] := by
      intro hnil
      have hempties := (rereadIn_eq_nil_iff.1 hnil).2
      obtain ⟨child, hchild⟩ := List.exists_mem_of_ne_nil children hsome
      exact hhollow ⟨child, hchild, hempties child hchild⟩ fun other hother => by
        rw [hempties other hother, Bool.true_or]
    have hplain : (pretty && (rereadIn pretty false (depth + 1) "" children).all Tree.isElement)
        = false := by
      rw [← Bool.not_eq_true, Bool.and_eq_true, all_isElement_rereadIn]
      rintro ⟨rfl, -, hall⟩
      obtain ⟨child, hchild, htext⟩ : ∃ child ∈ children, child.isElement = false := by
        simpa using hindent
      have hempty : isEmptyText child = true := by simpa [htext] using hall child hchild
      exact hhollow ⟨child, hchild, hempty⟩ hall
    rw [reread_plain hindent, chars_some hsome hindent, chars_some hagain hplain,
      startChars_append_iff, hchildren, List.append_right_inj, and_iff_right rfl]

/-- An element that is indented, when this holds of its children. -/
theorem chars_reread_indented_iff {after before : List Char} (hsome : children ≠ [])
    (hall : children.all Tree.isElement = true)
    (hchildren : ∀ (shown : Bool) (after before : List Char),
      Tree.childChars true (!shown) (depth + 1) (rereadIn true shown (depth + 1) "" children) ++ after
          = Tree.childChars true true (depth + 1) children ++ before
        ↔ Filled true (Tree.elementsIn children) ∧ after = before) :
    Tree.chars true depth (reread true depth (.element tag attrs children)) ++ after
        = Tree.chars true depth (.element tag attrs children) ++ before
      ↔ Filled true (Tree.element tag attrs children).elements ∧ after = before := by
  have helements : ∀ child ∈ children, child.isElement = true := List.all_eq_true.1 hall
  have hsolid : isHollow true children = false := by
    rw [← Bool.not_eq_true, isHollow_iff]
    rintro ⟨⟨child, hchild, hempty⟩, -⟩
    cases child with
    | text content => cases helements _ hchild
    | element tag attrs children => cases hempty
  have hindent : (true && children.all Tree.isElement) = true := hall
  rw [filled_element, hsolid, and_iff_right rfl, reread_indented hsome hall, chars_some hsome hindent]
  generalize textTags.contains tag = shown
  have hagain : rereadIn true shown (depth + 1) "" children
      ++ (if shown then [Tree.indentText depth] else []) ≠ [] := by
    obtain ⟨first, rest, rfl⟩ := List.exists_cons_of_ne_nil hsome
    simp [rereadIn_element (helements first List.mem_cons_self)]
  have hindent : (true && (rereadIn true shown (depth + 1) "" children
      ++ (if shown then [Tree.indentText depth] else [])).all Tree.isElement) = !shown := by
    cases shown with
    | true => simp [Tree.indentText, Tree.isElement]
    | false =>
      rw [Bool.true_and, if_neg Bool.false_ne_true, List.append_nil, Bool.not_false,
        all_isElement_rereadIn]
      exact ⟨rfl, fun child hchild => by rw [helements child hchild, Bool.or_true]⟩
  rw [chars_some hagain hindent, startChars_append_iff, Tree.childChars_append, List.append_assoc,
    ← List.append_assoc (Tree.childChars _ _ _ (if shown then _ else _)),
    ← List.append_assoc (Tree.childChars _ _ _ (if shown then _ else _)), childChars_indentText,
    hchildren, if_pos rfl, List.append_right_inj]

mutual

/-- **What is read back is written as before just when no element is hollow**, whatever comes behind
it. -/
theorem chars_reread_iff (pretty : Bool) : ∀ (tree : Tree) (depth : Nat) (after before : List Char),
    Tree.chars pretty depth (reread pretty depth tree) ++ after
        = Tree.chars pretty depth tree ++ before
      ↔ Filled pretty tree.elements ∧ after = before
  | .text content, depth, after, before => by
    simp [reread, Filled, Tree.elements]
  | .element tag attrs [], depth, after, before => by
    simp [reread, rereadIn, indentShows, textTrees, Filled, Tree.elements, Tree.elementsIn, isHollow,
      Tree.children]
  | .element tag attrs (child :: rest), depth, after, before => by
    cases hindent : pretty && (child :: rest).all Tree.isElement with
    | false =>
      exact chars_reread_plain_iff (List.cons_ne_nil _ _) hindent
        (childChars_rereadIn_iff pretty (child :: rest) (depth + 1) "")
    | true =>
      obtain ⟨rfl, hall⟩ : pretty = true ∧ (child :: rest).all Tree.isElement = true := by
        rwa [Bool.and_eq_true] at hindent
      exact chars_reread_indented_iff (List.cons_ne_nil _ _) hall fun shown after before =>
        childChars_indented_iff shown (child :: rest) (depth + 1) after before
          (List.all_eq_true.1 hall)

/-- The same for children that are not indented, behind a text. -/
theorem childChars_rereadIn_iff (pretty : Bool) : ∀ (trees : List Tree) (depth : Nat)
    (read : String) (after before : List Char),
    Tree.childChars pretty false depth (rereadIn pretty false depth read trees) ++ after
        = Markup.escapeText read.toList ++ (Tree.childChars pretty false depth trees ++ before)
      ↔ Filled pretty (Tree.elementsIn trees) ∧ after = before
  | [], depth, read, after, before => by
    rw [rereadIn, childChars_textTrees]
    simp [Tree.childChars, Filled, Tree.elementsIn]
  | .text content :: rest, depth, read, after, before => by
    have ih := childChars_rereadIn_iff pretty rest depth (read ++ content) after before
    rw [rereadIn_text, Tree.childChars, Tree.chars, Tree.elementsIn]
    simpa [Tree.elements] using ih
  | .element tag attrs children :: rest, depth, read, after, before => by
    have hrest := childChars_rereadIn_iff pretty rest depth "" after before
    rw [rereadIn_element rfl, if_neg Bool.false_ne_true, List.append_nil, Tree.childChars_append,
      childChars_textTrees, List.append_assoc, List.append_right_inj, Tree.childChars, Tree.childChars,
      if_neg Bool.false_ne_true, List.nil_append, List.nil_append, List.append_assoc,
      List.append_assoc, chars_reread_iff pretty (.element tag attrs children) depth,
      Tree.elementsIn, filled_append, and_assoc]
    exact and_congr_right fun _ => hrest

/-- The same for children that are indented. -/
theorem childChars_indented_iff (shown : Bool) : ∀ (trees : List Tree) (depth : Nat)
    (after before : List Char), (∀ child ∈ trees, child.isElement = true) →
    (Tree.childChars true (!shown) depth (rereadIn true shown depth "" trees) ++ after
        = Tree.childChars true true depth trees ++ before
      ↔ Filled true (Tree.elementsIn trees) ∧ after = before)
  | [], depth, after, before, _ => by
    simp [rereadIn, textTrees, Tree.childChars, Filled, Tree.elementsIn]
  | child :: rest, depth, after, before, hall => by
    have hrest := childChars_indented_iff shown rest depth after before fun other hother =>
      hall other (List.mem_cons_of_mem _ hother)
    have hagain : Tree.childChars true (!shown) depth (rereadIn true shown depth "" (child :: rest))
          ++ after
        = Markup.indentation depth ++ (Tree.chars true depth (reread true depth child)
          ++ (Tree.childChars true (!shown) depth (rereadIn true shown depth "" rest) ++ after)) := by
      rw [rereadIn_element (hall child List.mem_cons_self), textTrees, if_pos rfl, List.nil_append,
        Tree.childChars_append, Tree.childChars]
      conv_rhs => rw [← childChars_indentText shown depth depth]
      simp only [List.append_assoc]
    have hwritten : Tree.childChars true true depth (child :: rest) ++ before
        = Markup.indentation depth ++ (Tree.chars true depth child
          ++ (Tree.childChars true true depth rest ++ before)) := by
      rw [Tree.childChars, if_pos rfl, List.append_assoc, List.append_assoc]
    rw [hagain, hwritten, List.append_right_inj, chars_reread_iff true child depth, hrest,
      Tree.elementsIn, filled_append, and_assoc]

end

/-! ## Styles that are read back

The texts that indentation adds are blank, and in a style blanks at the ends do not count.  So the
styles are what they were. -/

theorem directText_textTrees (read : String) (rest : List Tree) :
    directText (textTrees read ++ rest) = read ++ directText rest := by
  rw [textTrees]
  split
  · next h => rw [h, List.nil_append, String.empty_append]
  · rfl

/-- The text between the children is read back as it was, in pieces that are put together. -/
theorem directText_rereadIn : ∀ (trees : List Tree) (read : String),
    directText (rereadIn pretty false depth read trees) = read ++ directText trees
  | [], read => by
    have hnone := directText_textTrees read []
    rwa [List.append_nil] at hnone
  | .text content :: rest, read => by
    rw [rereadIn_text, directText_rereadIn rest, directText, String.append_assoc]
  | .element tag attrs children :: rest, read => by
    rw [rereadIn_element rfl, if_neg Bool.false_ne_true, List.append_nil, directText_textTrees]
    exact congrArg (read ++ ·) ((directText_rereadIn rest "").trans String.empty_append)

theorem styleTextsOf_append (trees more : List Tree) :
    styleTextsOf (trees ++ more) = styleTextsOf trees ++ styleTextsOf more := by
  rw [Drawing.Document.styleTextsOf_eq, Drawing.Document.styleTextsOf_eq,
    Drawing.Document.styleTextsOf_eq, List.flatMap_append]

theorem styleTextsOf_textTrees (read : String) : styleTextsOf (textTrees read) = [] := by
  rw [textTrees]
  split <;> rfl

mutual

/-- The styles that are read back say what those that were written do. -/
theorem styleTexts_reread (pretty : Bool) : ∀ (tree : Tree) (depth : Nat),
    styleTexts (reread pretty depth tree) = styleTexts tree
  | .text content, depth => rfl
  | .element tag attrs children, depth => by
    have hinside := styleTextsOf_rereadIn pretty children (indentShows pretty tag children)
      (depth + 1) ""
    have hindent : styleTextsOf (if indentShows pretty tag children then [Tree.indentText depth]
        else []) = [] := by
      split <;> rfl
    rw [reread, styleTexts, styleTexts, styleTextsOf_append, hinside, hindent, List.append_nil]
    split
    · next hstyle =>
      have hshows : indentShows pretty tag children = false := by
        rw [beq_iff_eq.1 hstyle, indentShows]
        exact Bool.and_false _
      rw [hshows, if_neg Bool.false_ne_true, List.append_nil, directText_rereadIn,
        String.empty_append]
    · rfl

/-- Stylesheets are read back with their texts, however they are laid out. -/
theorem styleTextsOf_rereadIn (pretty : Bool) : ∀ (trees : List Tree) (indent : Bool) (depth : Nat)
    (read : String), styleTextsOf (rereadIn pretty indent depth read trees) = styleTextsOf trees
  | [], indent, depth, read => styleTextsOf_textTrees read
  | .text content :: rest, indent, depth, read =>
    styleTextsOf_rereadIn pretty rest indent depth (read ++ content)
  | .element tag attrs children :: rest, indent, depth, read => by
    have hindent : styleTextsOf (if indent then [Tree.indentText depth] else []) = [] := by
      cases indent <;> rfl
    rw [rereadIn_element rfl, styleTextsOf_append, styleTextsOf_append, styleTextsOf_textTrees,
      hindent, styleTextsOf, styleTextsOf, styleTexts_reread pretty (.element tag attrs children),
      styleTextsOf_rereadIn pretty rest]
    rfl

end

end Artifact
end Frontispiece
