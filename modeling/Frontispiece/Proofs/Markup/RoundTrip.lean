import Frontispiece.Markup.Parse
import Frontispiece.Proofs.Markup.Tag

/-!
# Reading what was written

A written tree is read back as the tree that it was, but for one thing that writing cannot keep:
texts that stand side by side become one, and a text without characters is nothing.
`Tree.normal` is the tree with both done.

## What is here

* `Tree.Each` — a property of the tag and the attributes of every element.
* `Tree.Named` — a tree whose tags and attributes have names.  It is written as it is read, and so
  is any tree of `Writable` tags.
* `Reads` — reading some of a text brings the reader from one state to another.  It composes, so
  that each part of a written tree can be looked at alone.
* `reads_tree`, `reads_children` — the reader on a written tree and on its children, by induction
  on the tree; text before the children is still to come when they are reached.
* `parse_written`, `parse_chars` — the round trip.

The proof is an induction on trees, and the trouble is with texts.  A text that was written is not
seen as a whole by the reader before something else begins, so there is no lemma for a text alone;
it is taken together with what comes after it.  `Reads` goes from one state of the reader to another
with a text that is still to come, so that a tree, its children and its siblings can be put one
behind the other.
-/

set_option autoImplicit false

namespace Frontispiece
namespace Markup

/-! ## Trees up to texts

Texts that touch each other cannot be told apart once they are written, and an empty one leaves
nothing.  `normal` joins and drops them, and this is all in which the tree that is read may differ
from the one that was written. -/

/-- The trees of a text: one, or none when there is nothing to be read. -/
def textTrees (s : String) : List Tree :=
  if s = "" then [] else [.text s]

/-- A text in front of trees, as one with the text that they start with. -/
def glue (s : String) : List Tree → List Tree
  | .text t :: rest => .text (s ++ t) :: rest
  | trees => textTrees s ++ trees

namespace Tree

mutual

/-- The tree with texts that stand side by side made one, and empty ones left out. -/
def normal : Tree → Tree
  | .text content => .text content
  | .element tag attrs children => .element tag attrs (normalAll children)

/-- The same for children. -/
def normalAll : List Tree → List Tree
  | [] => []
  | .text content :: rest => glue content (normalAll rest)
  | .element tag attrs children :: rest => .element tag attrs (normalAll children) :: normalAll rest

end

mutual

/-- A property of the tag and the attributes of every element of a tree. -/
def Each (p : String → Fields String → Prop) : Tree → Prop
  | .text _ => True
  | .element tag attrs children => p tag attrs ∧ EachIn p children

/-- The same for children. -/
def EachIn (p : String → Fields String → Prop) : List Tree → Prop
  | [] => True
  | child :: rest => child.Each p ∧ EachIn p rest

end

mutual

/-- All tags and attributes have names, and no attribute of an element comes twice. -/
def Named : Tree → Prop
  | .text _ => True
  | .element tag attrs children =>
    isName tag = true ∧ (∀ entry ∈ attrs, isName entry.1 = true) ∧ attrs.keys.Nodup ∧
      AllNamed children

/-- The same for children. -/
def AllNamed : List Tree → Prop
  | [] => True
  | child :: rest => child.Named ∧ AllNamed rest

end

mutual

/-- Names can be written. -/
theorem Named.each_writable : ∀ {tree : Tree}, tree.Named → tree.Each Writable
  | .text _, _ => trivial
  | .element _ _ _, ⟨htag, hnames, hnodup, hchildren⟩ =>
    ⟨.of_isName htag hnames hnodup, AllNamed.each_writable hchildren⟩

theorem AllNamed.each_writable : ∀ {trees : List Tree}, AllNamed trees → EachIn Writable trees
  | [], _ => trivial
  | _ :: _, ⟨hchild, hrest⟩ => ⟨Named.each_writable hchild, AllNamed.each_writable hrest⟩

end

end Tree

/-- Two texts in front of trees are one. -/
theorem glue_glue (s t : String) (trees : List Tree) :
    glue s (glue t trees) = glue (s ++ t) trees := by
  have hother : ∀ trees : List Tree, (∀ u rest, trees ≠ .text u :: rest) →
      glue s (textTrees t ++ trees) = textTrees (s ++ t) ++ trees := by
    intro trees htrees
    by_cases ht : t = ""
    · subst ht
      rw [textTrees, if_pos rfl, List.nil_append, String.append_empty, glue]
      exact htrees
    · have hst : ¬s ++ t = "" := by simp [ht]
      rw [textTrees, textTrees, if_neg ht, if_neg hst]
      rfl
  cases trees with
  | nil => exact hother [] (by simp)
  | cons tree rest =>
    cases tree with
    | text u =>
      simp only [glue, String.append_assoc]
    | element tag attrs children => exact hother _ (by simp)

@[simp] theorem glue_empty (trees : List Tree) : glue "" trees = trees := by
  rw [glue.eq_def]
  split
  · rw [String.empty_append]
  · rfl

/-! ## The reader without positions

The reader notes a position with each event, for its messages, and has fuel for the length of the
text.  Neither matters where nothing goes wrong, and `Reads` is reading without both. -/

/-- What has been read after some events. -/
def Progress.steps (p : Progress) : List Event → Except Fault Progress
  | [] => .ok p
  | event :: rest =>
    match p.step event with
    | .ok p => p.steps rest
    | .error fault => .error fault

/-- Positions matter only for errors. -/
theorem run_of_steps {q : Progress} : ∀ {events : List (Nat × Event)} {p : Progress},
    p.steps (events.map Prod.snd) = .ok q → p.run events = .ok q
  | [], _, h => by
    cases h
    rfl
  | (position, event) :: rest, p, h => by
    rw [List.map_cons, Progress.steps] at h
    rw [Progress.run]
    cases hstep : p.step event with
    | error fault =>
      rw [hstep] at h
      cases h
    | ok p' =>
      rw [hstep] at h
      exact run_of_steps h

/-- The events of a text, positions aside, when there is enough fuel. -/
def eventList (fuel : Nat) (s : List Char) : List Event :=
  (eventsWithin fuel s).map Prod.snd

/-- Reading brings the reader from `p` with `s` ahead to `q` with `t` ahead. -/
def Reads (p : Progress) (s : List Char) (q : Progress) (t : List Char) : Prop :=
  ∀ fuel, s.length < fuel → ∃ fuel', t.length < fuel' ∧
    p.steps (eventList fuel s) = q.steps (eventList fuel' t)

theorem Reads.refl (p : Progress) (s : List Char) : Reads p s p s :=
  fun fuel h => ⟨fuel, h, rfl⟩

theorem Reads.trans {p q r : Progress} {s t u : List Char} (hpq : Reads p s q t)
    (hqr : Reads q t r u) : Reads p s r u := by
  intro fuel h
  obtain ⟨fuel₁, h₁, heq₁⟩ := hpq fuel h
  obtain ⟨fuel₂, h₂, heq₂⟩ := hqr fuel₁ h₁
  exact ⟨fuel₂, h₂, heq₁.trans heq₂⟩

/-- Reading a part of markup. -/
theorem Reads.markup {p q : Progress} {s t : List Char} {event : Event}
    (hevent : markupEvent? s = some (event, t)) (hlength : t.length ≤ s.length)
    (hstep : p.step event = .ok q) : Reads p ('<' :: s) q t := by
  intro fuel hfuel
  cases fuel with
  | zero => exact absurd hfuel (Nat.not_lt_zero _)
  | succ fuel =>
    rw [List.length_cons] at hfuel
    refine ⟨fuel, by omega, ?_⟩
    have hlist : eventList (fuel + 1) ('<' :: s) = event :: eventList fuel t := by
      simp only [eventList, eventsWithin, hevent, List.map_cons]
    rw [hlist, Progress.steps, hstep]

/-- Reading text up to the next part of markup. -/
theorem Reads.text {p q : Progress} {s t : List Char} (hs : s ≠ [])
    (hplain : ∀ c ∈ s, (c != '<') = true) (hstep : p.step (.text (resolve s)) = .ok q) :
    Reads p (s ++ '<' :: t) q ('<' :: t) := by
  intro fuel hfuel
  obtain ⟨c, rest, rfl⟩ := List.exists_cons_of_ne_nil hs
  have hc : c ≠ '<' := by simpa using hplain c List.mem_cons_self
  cases fuel with
  | zero => exact absurd hfuel (Nat.not_lt_zero _)
  | succ fuel =>
    rw [List.length_append, List.length_cons] at hfuel
    refine ⟨fuel, by omega, ?_⟩
    have hlist : eventList (fuel + 1) (c :: rest ++ '<' :: t)
        = .text (resolve (c :: rest)) :: eventList fuel ('<' :: t) := by
      rw [eventList, eventsWithin]
      · rw [List.map_cons, List.takeWhile_append_of_pos hplain, List.dropWhile_append_of_pos hplain,
          List.takeWhile_cons_of_neg (by decide), List.dropWhile_cons_of_neg (by decide),
          List.append_nil, eventList]
      · simp
      · intro other heq
        exact hc (List.cons.inj heq).1
    rw [hlist, Progress.steps, hstep]

/-! ## Written trees

By induction on the tree.  A text has no end of its own, so a text before a tree is kept in hand
until it is known what follows: more text is joined to it, and a tag ends it. -/

/-- The element with trees behind its children so far. -/
def OpenElement.extend (e : OpenElement) (trees : List Tree) : OpenElement :=
  { e with before := trees.reverse ++ e.before }

theorem OpenElement.extend_append (e : OpenElement) (a b : List Tree) :
    (e.extend a).extend b = e.extend (a ++ b) := by
  simp [extend]

/-- **A written text is read back**, and nothing is read for one without characters. -/
theorem reads_text (s : String) (e : OpenElement) (outer : List OpenElement) (root : Option Tree)
    (rest : List Char) : Reads ⟨e :: outer, root⟩ (escapeText s.toList ++ '<' :: rest)
      ⟨e.extend (textTrees s) :: outer, root⟩ ('<' :: rest) := by
  by_cases hs : s = ""
  · subst hs
    exact .refl _ _
  · have hne : escapeText s.toList ≠ [] := by
      rw [Ne, escapeText_eq_nil, String.toList_eq_nil_iff]
      exact hs
    refine .text hne (fun c hc => escapeText_ne hc) ?_
    rw [resolve_text, textTrees, if_neg hs]
    rfl

/-- A tree that is placed in an open element is its next child. -/
theorem place_extend (e : OpenElement) (trees : List Tree) (outer : List OpenElement)
    (root : Option Tree) (tree : Tree) :
    Progress.place ⟨e.extend trees :: outer, root⟩ tree
      = ⟨e.extend (trees ++ [tree]) :: outer, root⟩ := by
  rw [← OpenElement.extend_append]
  rfl

theorem OpenElement.close_extend (tag : String) (attrs : Fields String) (trees : List Tree) :
    (OpenElement.extend ⟨tag, attrs, []⟩ trees).close = .element tag attrs trees := by
  simp [extend, close]

/-- An element without children as written. -/
theorem chars_empty (depth : Nat) (tag : String) (attrs : Fields String) (rest : List Char) :
    Tree.chars false depth (.element tag attrs []) ++ rest
      = '<' :: (tag.toList ++ (attrChars attrs ++ '/' :: '>' :: rest)) := by
  simp [Tree.chars]

/-- An element with children as written. -/
theorem chars_cons (depth : Nat) (tag : String) (attrs : Fields String) (child : Tree)
    (children : List Tree) (rest : List Char) :
    Tree.chars false depth (.element tag attrs (child :: children)) ++ rest
      = '<' :: (tag.toList ++ (attrChars attrs ++ '>' ::
        (Tree.childChars false false (depth + 1) (child :: children)
          ++ '<' :: '/' :: (tag.toList ++ '>' :: rest)))) := by
  simp [Tree.chars]

/-- An element starts with its tag. -/
theorem exists_chars (depth : Nat) (tag : String) (attrs : Fields String) (children : List Tree) :
    ∃ t, Tree.chars false depth (.element tag attrs children) = '<' :: t := by
  cases children with
  | nil => exact ⟨_, by simpa using chars_empty depth tag attrs []⟩
  | cons child rest => exact ⟨_, by simpa using chars_cons depth tag attrs child rest []⟩

/-- An element may stand inside another, or when there is no root yet. -/
theorem not_afterRoot {p : Progress} (hroot : p.openElements = [] → p.root = none) :
    ¬(p.openElements.isEmpty && p.root.isSome) = true := by
  rw [Bool.and_eq_true, List.isEmpty_iff]
  rintro ⟨hopen, hsome⟩
  rw [hroot hopen] at hsome
  cases hsome

section

variable {tag : String} {attrs : Fields String} (h : Writable tag attrs)

include h

/-- A start tag opens an element. -/
theorem reads_start (p : Progress) (hroot : p.openElements = [] → p.root = none)
    (rest : List Char) : Reads p ('<' :: (tag.toList ++ (attrChars attrs ++ '>' :: rest)))
      ⟨⟨tag, attrs, []⟩ :: p.openElements, p.root⟩ rest := by
  refine .markup (markupEvent?_start h rest) ?_ ?_
  · simp only [List.length_append, List.length_cons]
    omega
  · rw [Progress.step, if_neg (not_afterRoot hroot)]

/-- A tag that closes itself is an element. -/
theorem reads_empty (p : Progress) (hroot : p.openElements = [] → p.root = none)
    (rest : List Char) : Reads p ('<' :: (tag.toList ++ (attrChars attrs ++ '/' :: '>' :: rest)))
      (p.place (.element tag attrs [])) rest := by
  refine .markup (markupEvent?_empty h rest) ?_ ?_
  · simp only [List.length_append, List.length_cons]
    omega
  · rw [Progress.step, if_neg (not_afterRoot hroot)]

/-- An end tag closes the element that it names. -/
theorem reads_finish (trees : List Tree) (outer : List OpenElement) (root : Option Tree)
    (rest : List Char) :
    Reads ⟨OpenElement.extend ⟨tag, attrs, []⟩ trees :: outer, root⟩
      ('<' :: '/' :: (tag.toList ++ '>' :: rest))
      (Progress.place ⟨outer, root⟩ (.element tag attrs trees)) rest := by
  refine .markup (markupEvent?_finish h rest) ?_ ?_
  · simp only [List.length_append, List.length_cons]
    omega
  · have hsame : ((OpenElement.extend ⟨tag, attrs, []⟩ trees).tag == tag) = true :=
      beq_self_eq_true tag
    simp only [Progress.step]
    rw [if_pos hsame, OpenElement.close_extend]

end

mutual

/-- **A written element is read back** and put where it belongs. -/
theorem reads_tree : ∀ (tree : Tree), tree.isElement = true → tree.Each Writable →
    ∀ (depth : Nat) (p : Progress), (p.openElements = [] → p.root = none) → ∀ rest : List Char,
    Reads p (Tree.chars false depth tree ++ rest) (p.place tree.normal) rest
  | .element tag attrs [], _, h, depth, p, hroot, rest => by
    rw [chars_empty, Tree.normal, Tree.normalAll]
    exact reads_empty h.1 p hroot rest
  | .element tag attrs (child :: children), _, h, depth, p, hroot, rest => by
    have hinside := reads_children (child :: children) h.2 (depth + 1) "" ⟨tag, attrs, []⟩
      p.openElements p.root ('/' :: (tag.toList ++ '>' :: rest))
    rw [glue_empty] at hinside
    rw [chars_cons]
    refine (reads_start h.1 p hroot _).trans (hinside.trans ?_)
    exact reads_finish h.1 _ p.openElements p.root rest

/-- Written children are read back behind a text that is written before them. -/
theorem reads_children : ∀ (children : List Tree), Tree.EachIn Writable children →
    ∀ (depth : Nat) (s : String) (e : OpenElement) (outer : List OpenElement) (root : Option Tree)
    (rest : List Char),
    Reads ⟨e :: outer, root⟩
      (escapeText s.toList ++ (Tree.childChars false false depth children ++ '<' :: rest))
      ⟨e.extend (glue s (Tree.normalAll children)) :: outer, root⟩ ('<' :: rest)
  | [], _, _, s, e, outer, root, rest => by
    have hglue : glue s (Tree.normalAll []) = textTrees s := by simp [Tree.normalAll, glue]
    rw [hglue]
    exact reads_text s e outer root rest
  | .text t :: children, h, depth, s, e, outer, root, rest => by
    -- the two texts are written as one
    have ih := reads_children children h.2 depth (s ++ t) e outer root rest
    rw [String.toList_append, escapeText_append] at ih
    simpa [Tree.childChars, Tree.chars, Tree.normalAll, glue_glue] using ih
  | .element tag attrs inner :: children, h, depth, s, e, outer, root, rest => by
    -- the text before the element ends where its tag starts
    obtain ⟨t, ht⟩ := exists_chars depth tag attrs inner
    have htext := reads_text s e outer root
      (t ++ (Tree.childChars false false depth children ++ '<' :: rest))
    have helement := reads_tree (.element tag attrs inner) rfl h.1 depth
      ⟨e.extend (textTrees s) :: outer, root⟩ (by simp)
      (Tree.childChars false false depth children ++ '<' :: rest)
    have hrest := reads_children children h.2 depth ""
      (e.extend (textTrees s ++ [(Tree.element tag attrs inner).normal])) outer root rest
    rw [← List.cons_append, ← ht] at htext
    rw [place_extend] at helement
    rw [glue_empty, OpenElement.extend_append] at hrest
    have hglue : glue s (Tree.normalAll (.element tag attrs inner :: children))
        = textTrees s ++ [(Tree.element tag attrs inner).normal] ++ Tree.normalAll children := by
      simp [Tree.normalAll, Tree.normal, glue]
    have hchars : Tree.childChars false false depth (.element tag attrs inner :: children)
        = Tree.chars false depth (.element tag attrs inner)
          ++ Tree.childChars false false depth children := by
      simp [Tree.childChars]
    rw [hglue, hchars, List.append_assoc]
    exact htext.trans (helement.trans hrest)

end

/-! ## Whole texts

A reading that gets to the end of the text with nothing open and one root is a tree.  The written
form of a tree gets there. -/

/-- A text that is read to its end is the tree that the reader came to. -/
theorem parse_of_reads {s : List Char} (hmark : dropByteOrderMark s = s) {tree : Tree}
    (h : Reads ⟨[], none⟩ s ⟨[], some tree⟩ []) : parse s = .ok tree := by
  obtain ⟨fuel, hfuel, hsteps⟩ := h (s.length + 1) (Nat.lt_succ_self _)
  obtain ⟨fuel, rfl⟩ := Nat.exists_eq_add_one_of_ne_zero (Nat.ne_of_gt hfuel)
  have hend : eventList (fuel + 1) [] = [] := rfl
  have hevents : (events s).map Prod.snd = eventList (s.length + 1) s := by
    rw [events, hmark, List.map_map]
    rfl
  rw [hend, ← hevents] at hsteps
  rw [parse, treeOf, run_of_steps hsteps]
  rfl

/-- **Reading undoes writing** for every tree of writable tags.  Values and texts may hold anything,
also what looks like tags, references or comments. -/
theorem parse_written {tree : Tree} (helement : tree.isElement = true) (h : tree.Each Writable) :
    parse (Tree.chars false 0 tree) = .ok tree.normal := by
  have hreads := reads_tree tree helement h 0 ⟨[], none⟩ (fun _ => rfl) []
  rw [List.append_nil] at hreads
  refine parse_of_reads ?_ hreads
  cases tree with
  | text content => cases helement
  | element tag attrs children =>
    obtain ⟨t, ht⟩ := exists_chars 0 tag attrs children
    rw [ht]
    rfl

/-- The same for names. -/
theorem parse_chars {tree : Tree} (helement : tree.isElement = true) (h : tree.Named) :
    parse (Tree.chars false 0 tree) = .ok tree.normal :=
  parse_written helement h.each_writable

end Markup
end Frontispiece
