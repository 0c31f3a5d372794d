import Frontispiece.Proofs.Markup.Pretty

/-!
# Marks and elements of a tree

A written tree is a sequence of start tags, texts and end tags.  Each of them is a `Mark`, which
knows the tags of the elements around it.  What is the same in two trees, up to what was left out of
one, is said by comparing the marks that are left.

## What is here

* `Mark`, `Tree.marks` — the marks of a tree in order.  `Tree.suffix_of_mem_marks` says that they
  are part of the elements around the tree.
* `Tree.elements` — the elements of a tree in order, the tree itself first.
* `Tree.elements_layout` — a tree that is read back has the elements that were written.

The marks of a tree are what is written of it, in the order in which it is written, but as data and
with the path to each.  Two trees can be compared by their marks even if one has elements that the
other lacks, which is not possible by recursion on both.
-/

set_option autoImplicit false

namespace Frontispiece
namespace Markup

/-- A start tag, a text or an end tag. -/
inductive Token where
  | start (attrs : Fields String)
  | text (content : String)
  | finish

/-- What stands at one place of a written tree. -/
structure Mark where
  /-- The tags of the elements that the mark is part of, innermost first.  The tags of an element
  are part of it. -/
  within : List String
  token : Token

namespace Tree

mutual

/-- The marks of a tree in order, where `path` has the tags of the elements around it. -/
def marks (path : List String) : Tree → List Mark
  | .text content => [⟨path, .text content⟩]
  | .element tag attrs children =>
    ⟨tag :: path, .start attrs⟩ :: (marksIn (tag :: path) children ++ [⟨tag :: path, .finish⟩])

/-- The marks of children in order. -/
def marksIn (path : List String) : List Tree → List Mark
  | [] => []
  | child :: rest => marks path child ++ marksIn path rest

end

mutual

/-- The elements of a tree in order, the tree itself first. -/
def elements : Tree → List Tree
  | .text _ => []
  | .element tag attrs children => .element tag attrs children :: elementsIn children

/-- The elements of children in order. -/
def elementsIn : List Tree → List Tree
  | [] => []
  | child :: rest => elements child ++ elementsIn rest

end

theorem marksIn_eq (path : List String) (trees : List Tree) :
    marksIn path trees = trees.flatMap (marks path) := by
  induction trees with
  | nil => rfl
  | cons child rest ih => rw [marksIn, ih, List.flatMap_cons]

theorem marksIn_append (path : List String) (trees more : List Tree) :
    marksIn path (trees ++ more) = marksIn path trees ++ marksIn path more := by
  rw [marksIn_eq, marksIn_eq, marksIn_eq, List.flatMap_append]

theorem elementsIn_eq (trees : List Tree) : elementsIn trees = trees.flatMap elements := by
  induction trees with
  | nil => rfl
  | cons child rest ih => rw [elementsIn, ih, List.flatMap_cons]

theorem elementsIn_append (trees more : List Tree) :
    elementsIn (trees ++ more) = elementsIn trees ++ elementsIn more := by
  rw [elementsIn_eq, elementsIn_eq, elementsIn_eq, List.flatMap_append]

mutual

/-- The marks of a tree are part of all elements around it. -/
theorem suffix_of_mem_marks (path : List String) :
    ∀ {tree : Tree} {m : Mark}, m ∈ marks path tree → path <:+ m.within
  | .text _, m, h => by
    obtain rfl := List.mem_singleton.1 h
    exact List.suffix_rfl
  | .element tag attrs children, m, h =>
    (List.suffix_cons tag path).trans (suffix_of_mem_element path h)

/-- The marks of an element are part of it. -/
theorem suffix_of_mem_element (path : List String) {tag : String} {attrs : Fields String} :
    ∀ {children : List Tree} {m : Mark}, m ∈ marks path (.element tag attrs children) →
    (tag :: path) <:+ m.within
  | children, m, h => by
    rw [marks, List.mem_cons, List.mem_append, List.mem_singleton] at h
    rcases h with rfl | h | rfl
    · exact List.suffix_rfl
    · exact suffix_of_mem_marksIn (tag :: path) h
    · exact List.suffix_rfl

theorem suffix_of_mem_marksIn (path : List String) :
    ∀ {trees : List Tree} {m : Mark}, m ∈ marksIn path trees → path <:+ m.within
  | [], _, h => by cases h
  | child :: rest, m, h => by
    rw [marksIn, List.mem_append] at h
    exact h.elim (suffix_of_mem_marks path) (suffix_of_mem_marksIn path)

end

/-! ## Elements read back

Reading back changes texts only: it joins those that touch and drops those without characters, and
pretty printing adds some.  None of this is an element, so the elements are what they were. -/

/-- The tag and the attributes of an element. -/
def head (tree : Tree) : Option String × Fields String :=
  (tree.tag?, tree.attrs)

/-- A text in front adds no element. -/
theorem elementsIn_glue (s : String) (trees : List Tree) :
    elementsIn (glue s trees) = elementsIn trees := by
  have hother : ∀ trees, elementsIn (textTrees s ++ trees) = elementsIn trees := by
    intro trees
    rw [textTrees]
    split <;> rfl
  rw [glue.eq_def]
  split
  · rfl
  · exact hother _

mutual

/-- Texts made one, or left out, are no elements. -/
theorem elements_normal : ∀ tree : Tree,
    tree.normal.elements.map head = tree.elements.map head
  | .text _ => rfl
  | .element tag attrs children => by
    rw [normal, elements, elements, List.map_cons, List.map_cons, elementsIn_normalAll children]
    rfl

/-- The elements stay when texts next to each other are joined. -/
theorem elementsIn_normalAll : ∀ trees : List Tree,
    (elementsIn (normalAll trees)).map head = (elementsIn trees).map head
  | [] => by rw [normalAll]
  | .text content :: rest => by
    rw [normalAll, elementsIn_glue]
    exact elementsIn_normalAll rest
  | .element tag attrs children :: rest => by
    have helement := elements_normal (.element tag attrs children)
    rw [normal] at helement
    rw [normalAll, elementsIn, elementsIn, List.map_append, List.map_append, helement,
      elementsIn_normalAll rest]

end

mutual

/-- Neither are the texts of pretty printing. -/
theorem elements_spaced (depth : Nat) : ∀ tree : Tree,
    (tree.spaced depth).elements.map head = tree.elements.map head
  | .text _ => rfl
  | .element tag attrs children => by
    have hlast : ∀ indent : Bool, elementsIn (if indent then [indentText depth] else []) = [] := by
      intro indent
      cases indent <;> rfl
    rw [spaced, elements, elements, List.map_cons, List.map_cons, elementsIn_append, hlast,
      List.append_nil, elementsIn_spacedIn]
    rfl

/-- The elements stay when blank texts are put between them. -/
theorem elementsIn_spacedIn (indent : Bool) (depth : Nat) : ∀ trees : List Tree,
    (elementsIn (spacedIn indent depth trees)).map head = (elementsIn trees).map head
  | [] => rfl
  | child :: rest => by
    have hfirst : elementsIn (if indent then [indentText depth] else []) = [] := by
      cases indent <;> rfl
    rw [spacedIn, elementsIn_append, hfirst, List.nil_append, elementsIn, elementsIn,
      List.map_append, List.map_append, elements_spaced depth child,
      elementsIn_spacedIn indent depth rest]

end

/-- **Reading back a written tree gives its elements**, pretty or not. -/
theorem elements_layout (pretty : Bool) (tree : Tree) :
    (tree.layout pretty).normal.elements.map head = tree.elements.map head := by
  rw [elements_normal]
  cases pretty with
  | false => rfl
  | true => exact elements_spaced 0 tree

end Tree
end Markup
end Frontispiece
