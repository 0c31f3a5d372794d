import Frontispiece.Proofs.Markup.RoundTrip

/-!
# What the reader takes

The reader is generous with names: everything up to a space is a tag, and everything up to an equals
sign an attribute.  What it does guarantee of them is `Readable`, for every element of every tree.

## What is here

* `attributes?_names` — the attributes of a tag have distinct names, each as `IsAttrName` says.
* `Event.Has` — a property of the tag and the attributes of an event.  `markupEvent?_readable` and
  `eventsWithin_readable` say that the events of a text are readable.
* `Progress.Has` — the same for elements that were read.  One event keeps it, and so does a run.
* `parse_readable`, `parseSvg_readable` — the trees that are read are readable.

Reading accepts more than can be written, so there is no hope for names that are good in every way.
`Readable` is what is left: enough to make a document of what was read, namely distinct attributes,
and enough to tell when it can be written again.  It is carried through the reader as a property of
everything that was read so far.
-/

set_option autoImplicit false

namespace Frontispiece
namespace Markup

/-! ## Attributes

Where an attribute is read there is no space, so its name has at least one character; and a name
that was read before is refused.  No more than that is promised of names. -/

/-- An attribute that is read where no space stands has a name. -/
theorem isAttrName_of_attribute? {c : Char} {s name value rest : List Char}
    (hc : isSpace c = false) (h : attribute? (c :: s) = some (name, value, rest)) :
    IsAttrName (String.ofList name) := by
  have hname : name = c :: s.takeWhile fun c => !(c == '=' || isSpace c) := by
    rw [attribute?] at h
    dsimp only at h
    split at h
    · split at h
      · split at h
        · obtain ⟨found, -, hfound⟩ := Option.map_eq_some_iff.1 h
          exact (Prod.mk.inj hfound).1.symm
        · cases h
      · cases h
    · cases h
  refine ⟨c, s.takeWhile fun c => !(c == '=' || isSpace c), ?_, hc, fun d hd => ?_⟩
  · rw [String.toList_ofList, hname]
  · simpa using List.all_eq_true.1 List.all_takeWhile d hd

/-- Attributes that have been read have names, and no name comes twice. -/
theorem attributesFrom?_names : ∀ (fuel : Nat) (read : Fields String) (s : List Char)
    {attrs : Fields String}, attributesFrom? fuel read s = some attrs →
    (∀ entry ∈ read, IsAttrName entry.1) → read.keys.Nodup →
    (∀ entry ∈ attrs, IsAttrName entry.1) ∧ attrs.keys.Nodup
  | 0, _, _, _, h, _, _ => by cases h
  | fuel + 1, read, s, attrs, h, hnames, hnodup => by
    rw [attributesFrom?] at h
    cases hs : s.dropWhile isSpace with
    | nil =>
      rw [hs] at h
      obtain rfl := Option.some.inj h
      exact ⟨hnames, hnodup⟩
    | cons c rest =>
      rw [hs] at h
      obtain ⟨⟨name, value, after⟩, hattr, h⟩ := Option.bind_eq_some_iff.1 h
      dsimp only at h
      split at h
      · cases h
      · next hnew =>
        have hc : isSpace c = false := by
          have hhead := List.head?_dropWhile_not isSpace s
          rw [hs] at hhead
          simpa using hhead
        rw [Bool.not_eq_true, ← Bool.not_eq_true, Fields.contains_iff] at hnew
        refine attributesFrom?_names fuel _ _ h (fun entry hentry => ?_) ?_
        · rcases List.mem_append.1 hentry with hold | hlast
          · exact hnames entry hold
          · rw [List.mem_singleton.1 hlast]
            exact isAttrName_of_attribute? hc hattr
        · rw [Fields.keys, List.map_append]
          refine List.nodup_append.2 ⟨hnodup, by simp, fun a ha b hb heq => hnew ?_⟩
          have hb : b = String.ofList name := by simpa using hb
          exact hb ▸ heq ▸ ha

/-- **Attributes that are read have distinct names.** -/
theorem attributes?_names {s : List Char} {attrs : Fields String}
    (h : attributes? s = some attrs) :
    (∀ entry ∈ attrs, IsAttrName entry.1) ∧ attrs.keys.Nodup :=
  attributesFrom?_names _ _ _ h (by simp) List.nodup_nil

/-! ## Events

Markup is told by its first characters, and only what is none of the other kinds is a start tag.
That is all that a tag is known to be, so that a tag may be empty or have a slash in it. -/

/-- A property of the tag and the attributes of an event. -/
def Event.Has (p : String → Fields String → Prop) : Event → Prop
  | .start tag (some attrs) | .empty tag (some attrs) => p tag attrs
  | .start _ none | .empty _ none | .finish _ | .text _ | .silent | .broken => True

/-- The event that is made of a part that was found. -/
theorem has_of_map {α : Type} {p : String → Fields String → Prop} {found : Option α}
    {f : α → Event × List Char} {event : Event} {rest : List Char}
    (h : found.map f = some (event, rest)) (hf : ∀ a, (f a).1.Has p) : event.Has p := by
  obtain ⟨a, -, ha⟩ := Option.map_eq_some_iff.1 h
  have hevent := hf a
  rwa [ha] at hevent

/-- What stands at the start of a tag, up to the first space, and the attributes behind it. -/
theorem readable_of_inside {inside : List Char} {attrs : Fields String}
    (hstart : ∀ c rest, inside = c :: rest → c ≠ '!' ∧ c ≠ '/' ∧ c ≠ '?')
    (h : attributes? (inside.dropWhile (!isSpace ·)) = some attrs) :
    Readable (String.ofList (inside.takeWhile (!isSpace ·))) attrs where
  spaceless c hc := by
    rw [String.toList_ofList] at hc
    simpa using List.all_eq_true.1 List.all_takeWhile c hc
  start c rest heq := by
    rw [String.toList_ofList] at heq
    cases inside with
    | nil => cases heq
    | cons d others =>
      rw [List.takeWhile_cons] at heq
      split at heq
      · rw [List.cons.injEq] at heq
        exact heq.1 ▸ hstart d others rfl
      · cases heq
  names := (attributes?_names h).1
  nodup := (attributes?_names h).2

/-- The event of a start tag is readable when the tag does not start like other markup. -/
theorem startEvent_readable {inside : List Char}
    (hstart : ∀ c rest, inside = c :: rest → c ≠ '!' ∧ c ≠ '/' ∧ c ≠ '?') :
    (startEvent inside).Has Readable := by
  rw [startEvent]
  split
  · next before hreverse =>
    have hinside : inside = before.reverse ++ ['/'] := by
      rw [← List.reverse_cons, ← hreverse, List.reverse_reverse]
    dsimp only
    cases hattrs : attributes? (before.reverse.dropWhile (!isSpace ·)) with
    | none => trivial
    | some attrs =>
      refine readable_of_inside (fun c rest heq => ?_) hattrs
      exact hstart c (rest ++ ['/']) (by rw [hinside, heq, List.cons_append])
  · cases hattrs : attributes? (inside.dropWhile (!isSpace ·)) with
    | none => trivial
    | some attrs => exact readable_of_inside hstart hattrs

/-- The inside of a tag is the start of the text. -/
theorem tagEnd?_cons {quote : Option Char} {c d : Char} {s inside rest : List Char}
    (h : tagEnd? quote (c :: s) = some (d :: inside, rest)) : d = c := by
  rw [tagEnd?.eq_def] at h
  dsimp only at h
  split at h
  · cases h
  · obtain ⟨found, -, hfound⟩ := Option.map_eq_some_iff.1 h
    exact (List.cons.inj (Prod.mk.inj hfound).1).1.symm

/-- What follows `<!` is text or has no content. -/
theorem bangEvent?_has {p : String → Fields String → Prop} {s rest : List Char} {event : Event}
    (h : bangEvent? s = some (event, rest)) : event.Has p := by
  rw [bangEvent?.eq_def] at h
  split at h
  · exact has_of_map h fun _ => trivial
  · obtain ⟨after, -, h⟩ := Option.bind_eq_some_iff.1 h
    obtain ⟨found, -, hfound⟩ := Option.bind_eq_some_iff.1 h
    rw [← (Prod.mk.inj (Option.some.inj hfound)).1]
    trivial
  · obtain ⟨after, -, h⟩ := Option.bind_eq_some_iff.1 h
    obtain ⟨found, -, hfound⟩ := Option.bind_eq_some_iff.1 h
    dsimp only at hfound
    split at hfound
    · cases hfound
    · rw [← (Prod.mk.inj (Option.some.inj hfound)).1]
      trivial

/-- **Every part of markup is readable.** -/
theorem markupEvent?_readable {s rest : List Char} {event : Event}
    (h : markupEvent? s = some (event, rest)) : event.Has Readable := by
  rw [markupEvent?.eq_def] at h
  split at h
  · cases h
  · exact bangEvent?_has h
  · exact has_of_map h fun _ => trivial
  · cases h
  · exact has_of_map h fun _ => trivial
  · next hnil hbang hslash _ hquestion =>
    obtain ⟨⟨inside, after⟩, hend, hfound⟩ := Option.map_eq_some_iff.1 h
    rw [← (Prod.mk.inj hfound).1]
    refine startEvent_readable fun c others heq => ?_
    cases s with
    | nil => exact absurd rfl hnil
    | cons d s =>
      subst heq
      rw [tagEnd?_cons hend]
      refine ⟨?_, ?_, ?_⟩
      · rintro rfl
        exact hbang s rfl
      · rintro rfl
        exact hslash s rfl
      · rintro rfl
        exact hquestion s rfl

/-- So every tag of a text has attributes of this kind. -/
theorem eventsWithin_readable : ∀ (fuel : Nat) (s : List Char),
    ∀ entry ∈ eventsWithin fuel s, entry.2.Has Readable
  | 0, _, _, h => by cases h
  | fuel + 1, s, entry, h => by
    rw [eventsWithin.eq_def] at h
    dsimp only at h
    split at h
    · cases h
    · split at h
      · next hevent =>
        rcases List.mem_cons.1 h with rfl | h
        · exact markupEvent?_readable hevent
        · exact eventsWithin_readable fuel _ entry h
      · rw [List.mem_singleton.1 h]
        trivial
    · rcases List.mem_cons.1 h with rfl | h
      · trivial
      · exact eventsWithin_readable fuel _ entry h

/-! ## Trees

The elements of a tree are made of events, each from one, so a property of events becomes one of
trees.  It is carried by all that has been read so far: by the open elements, and by the root once
it is closed. -/

theorem eachIn_iff {p : String → Fields String → Prop} {trees : List Tree} :
    Tree.EachIn p trees ↔ ∀ tree ∈ trees, tree.Each p := by
  induction trees with
  | nil => simp [Tree.EachIn]
  | cons child rest ih => simp [Tree.EachIn, ih]

variable {p : String → Fields String → Prop}

/-- An open element and its children so far have a property. -/
def OpenElement.Has (p : String → Fields String → Prop) (e : OpenElement) : Prop :=
  p e.tag e.attrs ∧ ∀ child ∈ e.before, child.Each p

theorem OpenElement.Has.push {e : OpenElement} (h : e.Has p) {child : Tree} (hchild : child.Each p) :
    (e.push child).Has p := by
  refine ⟨h.1, fun other hother => ?_⟩
  rcases List.mem_cons.1 hother with rfl | hold
  · exact hchild
  · exact h.2 other hold

theorem OpenElement.Has.close {e : OpenElement} (h : e.Has p) : e.close.Each p :=
  ⟨h.1, eachIn_iff.2 fun child hchild => h.2 child (List.mem_reverse.1 hchild)⟩

/-- Everything that was read has a property. -/
structure Progress.Has (p : String → Fields String → Prop) (progress : Progress) : Prop where
  openElements : ∀ e ∈ progress.openElements, e.Has p
  root : ∀ tree, progress.root = some tree → tree.Each p

variable {progress next : Progress}

theorem Progress.Has.push (h : progress.Has p) {e : OpenElement} {outer : List OpenElement}
    (heq : progress.openElements = e :: outer) {child : Tree} (hchild : child.Each p) :
    Progress.Has p { progress with openElements := e.push child :: outer } := by
  refine ⟨fun other hother => ?_, h.root⟩
  have hin : ∀ other ∈ e :: outer, other.Has p := heq ▸ h.openElements
  rcases List.mem_cons.1 hother with rfl | hold
  · exact (hin e List.mem_cons_self).push hchild
  · exact hin other (List.mem_cons_of_mem e hold)

theorem Progress.Has.place (h : progress.Has p) {tree : Tree} (htree : tree.Each p) :
    (progress.place tree).Has p := by
  rw [Progress.place]
  split
  · refine ⟨h.openElements, fun other hother => ?_⟩
    rw [← Option.some.inj hother]
    exact htree
  · next e outer heq => exact h.push heq htree

/-- **One event keeps a property that it has.** -/
theorem Progress.Has.step (h : progress.Has p) {event : Event} (hevent : event.Has p)
    (hstep : progress.step event = .ok next) : next.Has p := by
  rw [Progress.step.eq_def] at hstep
  cases event with
  | silent =>
    obtain rfl := Except.ok.inj hstep
    exact h
  | broken => cases hstep
  | text content =>
    dsimp only at hstep
    split at hstep
    · next e outer heq =>
      obtain rfl := Except.ok.inj hstep
      exact h.push heq trivial
    · split at hstep
      · obtain rfl := Except.ok.inj hstep
        exact h
      · cases hstep
  | start tag attrs =>
    dsimp only at hstep
    split at hstep
    · cases hstep
    · cases attrs with
      | none => cases hstep
      | some attrs =>
        obtain rfl := Except.ok.inj hstep
        refine ⟨fun e he => ?_, h.root⟩
        rcases List.mem_cons.1 he with rfl | hold
        · exact ⟨hevent, by simp⟩
        · exact h.openElements e hold
  | empty tag attrs =>
    dsimp only at hstep
    split at hstep
    · cases hstep
    · cases attrs with
      | none => cases hstep
      | some attrs =>
        obtain rfl := Except.ok.inj hstep
        exact h.place ⟨hevent, trivial⟩
  | finish tag =>
    dsimp only at hstep
    split at hstep
    · cases hstep
    · next e outer heq =>
      -- the element is closed with what it has gathered, and is placed in the one around it
      have hin : ∀ other ∈ e :: outer, other.Has p := heq ▸ h.openElements
      split at hstep
      · obtain rfl := Except.ok.inj hstep
        have houter : Progress.Has p { progress with openElements := outer } :=
          ⟨fun other hother => hin other (List.mem_cons_of_mem e hother), h.root⟩
        exact houter.place (hin e List.mem_cons_self).close
      · cases hstep

/-- **A run keeps it.** -/
theorem Progress.Has.run : ∀ {events : List (Nat × Event)} {progress : Progress}, progress.Has p →
    (∀ entry ∈ events, entry.2.Has p) → progress.run events = .ok next → next.Has p
  | [], _, h, _, hrun => by
    obtain rfl := Except.ok.inj hrun
    exact h
  | (position, event) :: rest, progress, h, hevents, hrun => by
    rw [Progress.run] at hrun
    cases hstep : progress.step event with
    | error fault =>
      rw [hstep] at hrun
      cases hrun
    | ok after =>
      rw [hstep] at hrun
      have hafter := h.step (hevents _ List.mem_cons_self) hstep
      exact hafter.run (fun entry he => hevents entry (List.mem_cons_of_mem _ he)) hrun

/-- What the events of a text have, its tree has. -/
theorem treeOf_each {size : Nat} {events : List (Nat × Event)} {tree : Tree}
    (hevents : ∀ entry ∈ events, entry.2.Has p) (h : treeOf size events = .ok tree) :
    tree.Each p := by
  rw [treeOf] at h
  cases hrun : Progress.run ⟨[], none⟩ events with
  | error e =>
    rw [hrun] at h
    cases h
  | ok after =>
    have hstart : (⟨[], none⟩ : Progress).Has p := ⟨by simp, by simp⟩
    have hafter := hstart.run hevents hrun
    simp only [hrun, bind, Except.bind] at h
    split at h
    · cases h
    · split at h
      · next heq =>
        obtain rfl := Except.ok.inj h
        exact hafter.root _ heq
      · cases h

/-- **Trees that are read are readable.** -/
theorem parse_readable {s : List Char} {tree : Tree} (h : parse s = .ok tree) :
    tree.Each Readable := by
  refine treeOf_each (fun entry hentry => ?_) h
  obtain ⟨within, hwithin, rfl⟩ := List.mem_map.1 hentry
  exact eventsWithin_readable _ _ within hwithin

/-! ## Drawings

A drawing is markup whose root is an `svg` element, and nothing else is asked of it. -/

/-- A text that holds a drawing is markup with an `svg` element. -/
theorem parseSvg_eq_ok_iff {s : List Char} {tree : Tree} :
    parseSvg s = .ok tree ↔ parse s = .ok tree ∧ tree.tag? = some "svg" := by
  rw [parseSvg]
  cases parse s with
  | error e => simp [bind, Except.bind]
  | ok found =>
    simp only [bind, Except.bind]
    split
    · next htag =>
      constructor
      · rintro h
        obtain rfl := Except.ok.inj h
        exact ⟨rfl, htag⟩
      · rintro ⟨h, -⟩
        exact h
    · next hother =>
      constructor
      · rintro h
        cases h
      · rintro ⟨h, htag⟩
        obtain rfl := Except.ok.inj h
        exact absurd htag hother

theorem parseSvg_readable {s : List Char} {tree : Tree} (h : parseSvg s = .ok tree) :
    tree.Each Readable :=
  parse_readable (parseSvg_eq_ok_iff.1 h).1

/-- A drawing that was read is an `svg` element. -/
theorem exists_of_parseSvg {s : List Char} {tree : Tree} (h : parseSvg s = .ok tree) :
    ∃ attrs children, tree = .element "svg" attrs children := by
  have htag := (parseSvg_eq_ok_iff.1 h).2
  cases tree with
  | text content => cases htag
  | element tag attrs children =>
    obtain rfl := Option.some.inj htag
    exact ⟨attrs, children, rfl⟩

end Markup
end Frontispiece
