import Frontispiece.Proofs.Markup.Readable

/-!
# Pretty printing

Pretty printing puts line ends and indentation between elements.  `Tree.spaced` puts them into the
tree, as texts: writing that tree plainly is writing the tree prettily, so that what is known of the
plain form holds of both.

## What is here

* `Tree.spaced` — the tree with the texts of pretty printing.
* `Tree.Each.spaced` — it has the names that the tree has.
* `Tree.chars_spaced` — it is written as the tree is written prettily.
* `parse_rendered` — both forms are read back.

The pretty form could be treated by a second proof of the round trip, with indentation at each step.
Instead it is reduced to the plain form: indentation is text, so a tree with that text in it is
written plainly as the other is prettily.  The plain round trip then says what is read back, with
the indentation as part of it.
-/

set_option autoImplicit false

namespace Frontispiece
namespace Markup

variable {p q : String → Fields String → Prop}

/-! ## Properties of names

Properties of tags and attributes go through whole trees, and several of them are needed of the same
tree.  They are taken together element by element. -/

mutual

/-- What follows from two properties of names. -/
theorem Tree.Each.imp₂ {r : String → Fields String → Prop}
    (h : ∀ tag attrs, p tag attrs → q tag attrs → r tag attrs) : ∀ {tree : Tree},
    tree.Each p → tree.Each q → tree.Each r
  | .text _, _, _ => trivial
  | .element tag attrs _, ⟨hp, hps⟩, ⟨hq, hqs⟩ => ⟨h tag attrs hp hq, Tree.EachIn.imp₂ h hps hqs⟩

theorem Tree.EachIn.imp₂ {r : String → Fields String → Prop}
    (h : ∀ tag attrs, p tag attrs → q tag attrs → r tag attrs) : ∀ {trees : List Tree},
    Tree.EachIn p trees → Tree.EachIn q trees → Tree.EachIn r trees
  | [], _, _ => trivial
  | _ :: _, ⟨hp, hps⟩, ⟨hq, hqs⟩ => ⟨Tree.Each.imp₂ h hp hq, Tree.EachIn.imp₂ h hps hqs⟩

end

theorem Tree.EachIn.append {trees more : List Tree} (h : Tree.EachIn p trees)
    (hmore : Tree.EachIn p more) : Tree.EachIn p (trees ++ more) := by
  rw [eachIn_iff] at h hmore ⊢
  intro tree htree
  rcases List.mem_append.1 htree with hfirst | hsecond
  · exact h tree hfirst
  · exact hmore tree hsecond

/-! ## Pretty printing

The writer has a depth and decides at each element whether to indent its children.  In `spaced` the
decision is made once, in the tree, and the writer of the plain form does the rest. -/

namespace Tree

/-- The indentation of a depth as a text. -/
def indentText (depth : Nat) : Tree :=
  .text (String.ofList (indentation depth))

mutual

/-- The tree at a depth with the texts that pretty printing puts between elements. -/
def spaced (depth : Nat) : Tree → Tree
  | .text content => .text content
  | .element tag attrs children =>
    let indent := !children.isEmpty && children.all isElement
    .element tag attrs
      (spacedIn indent (depth + 1) children ++ if indent then [indentText depth] else [])

/-- The same for children, with such a text before each if `indent` is set. -/
def spacedIn (indent : Bool) (depth : Nat) : List Tree → List Tree
  | [] => []
  | child :: rest =>
    (if indent then [indentText depth] else []) ++ spaced depth child :: spacedIn indent depth rest

end

mutual

theorem Each.spaced : ∀ {tree : Tree}, tree.Each p → ∀ depth : Nat, (tree.spaced depth).Each p
  | .text _, _, _ => trivial
  | .element tag attrs children, ⟨htag, hchildren⟩, depth => by
    refine ⟨htag, (EachIn.spacedIn hchildren _ (depth + 1)).append ?_⟩
    split
    · exact ⟨trivial, trivial⟩
    · exact trivial

/-- Blank texts between elements add no element. -/
theorem EachIn.spacedIn : ∀ {trees : List Tree}, EachIn p trees → ∀ (indent : Bool) (depth : Nat),
    EachIn p (Tree.spacedIn indent depth trees)
  | [], _, _, _ => trivial
  | child :: rest, ⟨hchild, hrest⟩, indent, depth => by
    have hspaced : EachIn p (child.spaced depth :: Tree.spacedIn indent depth rest) :=
      ⟨Each.spaced hchild depth, EachIn.spacedIn hrest indent depth⟩
    rw [Tree.spacedIn]
    refine EachIn.append ?_ hspaced
    split
    · exact ⟨trivial, trivial⟩
    · exact trivial

end

/-- A text in front adds no element. -/
theorem EachIn.glue {trees : List Tree} (h : EachIn p trees) (s : String) :
    EachIn p (glue s trees) := by
  have hother : EachIn p (textTrees s ++ trees) := by
    rw [textTrees]
    split
    · exact h
    · exact ⟨trivial, h⟩
  rw [Markup.glue.eq_def]
  split
  · exact ⟨trivial, h.2⟩
  · exact hother

mutual

theorem Each.normal : ∀ {tree : Tree}, tree.Each p → tree.normal.Each p
  | .text _, _ => trivial
  | .element tag attrs children, ⟨htag, hchildren⟩ => by
    rw [Tree.normal]
    exact ⟨htag, EachIn.normalAll hchildren⟩

theorem EachIn.normalAll : ∀ {trees : List Tree}, EachIn p trees → EachIn p (Tree.normalAll trees)
  | [], _ => by rwa [Tree.normalAll]
  | .text content :: rest, ⟨_, hrest⟩ => by
    rw [Tree.normalAll]
    exact (EachIn.normalAll hrest).glue content
  | .element tag attrs children :: rest, ⟨⟨htag, hchildren⟩, hrest⟩ => by
    rw [Tree.normalAll]
    exact ⟨⟨htag, EachIn.normalAll hchildren⟩, EachIn.normalAll hrest⟩

end

theorem escapeText_of_plain : ∀ {s : List Char}, (∀ c ∈ s, escapeTextChar c = [c]) →
    escapeText s = s
  | [], _ => rfl
  | c :: rest, h => by
    have ih := escapeText_of_plain fun d hd => h d (List.mem_cons_of_mem c hd)
    rw [escapeText, List.flatMap_cons, h c List.mem_cons_self, ← escapeText, ih]
    rfl

/-- Indentation is written as it is. -/
theorem escapeText_indentation (depth : Nat) :
    escapeText (indentation depth) = indentation depth := by
  refine escapeText_of_plain fun c hc => ?_
  rcases List.mem_cons.1 hc with rfl | hc
  · rfl
  · obtain ⟨copy, hcopy, hc⟩ := List.mem_flatten.1 hc
    rw [List.eq_of_mem_replicate hcopy] at hc
    have hspace : c = ' ' := by simpa using hc
    rw [hspace]
    rfl

theorem chars_indentText (pretty : Bool) (depth inner : Nat) :
    chars pretty inner (indentText depth) = indentation depth := by
  rw [indentText, chars, String.toList_ofList, escapeText_indentation]

theorem childChars_append (pretty indent : Bool) (depth : Nat) : ∀ trees more : List Tree,
    childChars pretty indent depth (trees ++ more)
      = childChars pretty indent depth trees ++ childChars pretty indent depth more
  | [], _ => rfl
  | child :: rest, more => by
    simp [childChars, childChars_append pretty indent depth rest more]

mutual

/-- **Pretty printing is printing with texts between the elements.** -/
theorem chars_spaced : ∀ (tree : Tree) (inner depth : Nat),
    chars false inner (tree.spaced depth) = chars true depth tree
  | .text _, _, _ => rfl
  | .element tag attrs [], inner, depth => by simp [spaced, spacedIn, chars]
  | .element tag attrs (child :: children), inner, depth => by
    have hchildren := childChars_spacedIn (child :: children) (inner + 1) (depth + 1)
    have hsome : ∀ indent, spacedIn indent (depth + 1) (child :: children) ≠ [] := by
      intro indent
      simp [spacedIn]
    rw [spaced, chars, chars]
    cases (child :: children).all isElement with
    | false => simp [hsome, hchildren]
    | true => simp [hsome, hchildren, childChars_append, childChars, chars_indentText]

/-- Indented children are children with blank texts between them. -/
theorem childChars_spacedIn : ∀ (trees : List Tree) (inner depth : Nat) (indent : Bool),
    childChars false false inner (spacedIn indent depth trees) = childChars true indent depth trees
  | [], _, _, _ => rfl
  | child :: rest, inner, depth, indent => by
    have hchild := chars_spaced child inner depth
    have hrest := childChars_spacedIn rest inner depth indent
    rw [spacedIn, childChars_append]
    cases indent with
    | false => simp [childChars, hchild, hrest]
    | true => simp [childChars, hchild, hrest, chars_indentText]

end

/-- A tree that is written plainly like the given one, prettily or not. -/
def layout (pretty : Bool) (tree : Tree) : Tree :=
  if pretty then tree.spaced 0 else tree

theorem chars_layout (pretty : Bool) (tree : Tree) :
    chars false 0 (tree.layout pretty) = chars pretty 0 tree := by
  cases pretty with
  | false => rfl
  | true => exact chars_spaced tree 0 0

theorem Each.layout {tree : Tree} (h : tree.Each p) (pretty : Bool) :
    (tree.layout pretty).Each p := by
  cases pretty with
  | false => exact h
  | true => exact h.spaced 0

theorem tag?_layout (pretty : Bool) (tree : Tree) : (tree.layout pretty).tag? = tree.tag? := by
  cases pretty with
  | false => rfl
  | true => cases tree <;> rfl

theorem tag?_normal (tree : Tree) : tree.normal.tag? = tree.tag? := by
  cases tree <;> rfl

end Tree

/-- **Both written forms are read back**, the pretty one with the texts that it adds. -/
theorem parse_rendered {tree : Tree} {tag : String} (htag : tree.tag? = some tag)
    (h : tree.Each Writable) (pretty : Bool) :
    parse (tree.render pretty).toList = .ok (tree.layout pretty).normal := by
  have helement : (tree.layout pretty).isElement = true := by
    cases heq : tree.layout pretty with
    | element tag attrs children => rfl
    | text content =>
      rw [← Tree.tag?_layout pretty, heq] at htag
      cases htag
  rw [Tree.render_eq, String.toList_ofList, ← Tree.chars_layout]
  exact parse_written helement (h.layout pretty)

end Markup
end Frontispiece
