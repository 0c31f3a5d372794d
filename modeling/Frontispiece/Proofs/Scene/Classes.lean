import Frontispiece.Proofs.Drawing.Frame
import Frontispiece.Proofs.Text.Pieces
import Frontispiece.Scene.Draw
import Mathlib.Data.List.Basic
import Mathlib.Data.List.Induction

/-!
# Lists of classes

An element has the words of its attribute `class` as its classes.  A call of `addClass` reads the
attribute as words, but it compares its argument as a whole and writes it as it is.  An argument that
is one word is a class, and then a list has each of its classes once.  An argument of several words,
or with blanks around a word, is never found in the list that it was written to, so it is written
anew by each call: see `exists_class_twice`.

## What is here

* `classes_intercalate` — the classes of a written list are those of its entries.
* `present_addClass` — the list after one call, for any argument.
* `present_addAll`, `addClass_addAll` — the list after calls with words, and calls that come again.
* `present_addAll_blank` — calls with one blank text.
* `isWord_or_blank` — calls that change nothing when they come again are of one of these two kinds.
* `addClasses_classes` — **each class is there once, and no call changes anything when it comes
  again, just if every argument is one word, or all of them are one blank text.**

The comparison in `addClass` is between the argument and the words of the attribute.  If the
argument is a word, that is what one wants.  If it has several words it can never be equal to one of
them, so it is added although each of its words is there.  The theorem is about the sequences of
calls in which this does not happen, and `isWord_or_blank` says that there are no others in which
calls may be repeated.
-/

set_option autoImplicit false

namespace Frontispiece

open Text (IsWord allBlank)

namespace Drawing

variable {list : Option String} {c : String} {cs : List String}

/-! ## Written lists

The attribute is a text, and its classes are its words.  Writing words with blanks between them and
reading them again gives the words, also when what is written was not a word. -/

/-- The classes that an attribute lists; none when it is absent. -/
def present (list : Option String) : List String :=
  (list.map classes).getD []

/-- The classes of a written list are those of its entries. -/
theorem classes_intercalate (entries : List String) :
    classes (" ".intercalate entries) = entries.flatMap classes := by
  have hcut : ∀ s t : List Char, (Text.words (s ++ ' ' :: t)).map String.ofList
      = (Text.words s).map String.ofList ++ (Text.words t).map String.ofList := fun s t => by
    rw [Text.words_append (by decide), List.map_append]
  cases entries with
  | nil => rfl
  | cons entry rest =>
    exact Text.cut_intercalate (f := fun s => (Text.words s).map String.ofList) rfl hcut
      (List.cons_ne_nil entry rest)

theorem classes_of_isWord (h : IsWord c.toList) : classes c = [c] := by
  rw [classes, Text.words_of_isWord h, List.map_singleton, String.ofList_toList]

theorem classes_eq_nil_iff : classes c = [] ↔ allBlank c.toList = true := by
  rw [classes, List.map_eq_nil_iff, Text.words_eq_nil_iff]

theorem isWord_of_mem_present (h : c ∈ present list) : IsWord c.toList := by
  cases list with
  | none => cases h
  | some s =>
    obtain ⟨word, hword, rfl⟩ := List.mem_map.1 h
    rw [String.toList_ofList]
    exact Text.isWord_of_mem_words hword

/-- A list of words is what it is when it was written and is read again. -/
theorem flatMap_classes (h : ∀ c ∈ cs, IsWord c.toList) : cs.flatMap classes = cs := by
  induction cs with
  | nil => rfl
  | cons c cs ih =>
    rw [List.flatMap_cons, classes_of_isWord (h c List.mem_cons_self),
      ih fun d hd => h d (List.mem_cons_of_mem c hd), List.singleton_append]

/-! ## One call

A call looks for its argument among the words and adds it as it is.  So of an argument with several
words, each becomes a class, but the argument is never found. -/

theorem addClass_eq (list : Option String) (c : String) :
    addClass list c
      = " ".intercalate (if c ∈ present list then present list else present list ++ [c]) := by
  rw [addClass]
  by_cases h : c ∈ present list
  · rw [if_pos h]
    exact congrArg _ (if_pos (List.contains_iff_mem.2 h))
  · rw [if_neg h]
    exact congrArg _ (if_neg fun hcontains => h (List.contains_iff_mem.1 hcontains))

/-- **The classes after a call**: those of the argument come last, unless the argument as a whole is
a class already. -/
theorem present_addClass (list : Option String) (c : String) :
    present (some (addClass list c))
      = if c ∈ present list then present list else present list ++ classes c := by
  have hpresent : (present list).flatMap classes = present list :=
    flatMap_classes fun _ => isWord_of_mem_present
  rw [addClass_eq]
  change classes _ = _
  rw [classes_intercalate]
  split
  · exact hpresent
  · rw [List.flatMap_append, hpresent, List.flatMap_singleton]

theorem addClass_of_mem (h : c ∈ present list) :
    addClass list c = " ".intercalate (present list) := by
  rw [addClass_eq, if_pos h]

theorem addClass_of_notMem (h : c ∉ present list) :
    addClass list c = " ".intercalate (present list ++ [c]) := by
  rw [addClass_eq, if_neg h]

/-! ## Calls with words

With words the attribute is a list without repetition, and adding to it is adding to a set that
remembers its order. -/

/-- The attribute after calls, one for each text. -/
def addAll (list : Option String) (cs : List String) : Option String :=
  cs.foldl (fun list c => some (addClass list c)) list

theorem addAll_concat (list : Option String) (cs : List String) (c : String) :
    addAll list (cs ++ [c]) = some (addClass (addAll list cs) c) := by
  rw [addAll, List.foldl_append]
  rfl

theorem eraseDups_concat (cs : List String) (c : String) :
    (cs ++ [c]).eraseDups
      = if c ∈ cs.eraseDups then cs.eraseDups else cs.eraseDups ++ [c] := by
  rw [List.eraseDups_append]
  by_cases h : c ∈ cs
  · simp [List.removeAll, h]
  · simp [List.removeAll, h, List.eraseDups_cons]

theorem eraseDups_of_nodup : ∀ {cs : List String}, cs.Nodup → cs.eraseDups = cs
  | [], _ => rfl
  | c :: cs, h => by
    obtain ⟨hc, hcs⟩ := List.nodup_cons.1 h
    have hfilter : cs.filter (fun d => !d == c) = cs :=
      List.filter_eq_self.2 fun d hd => by simpa using fun heq : d = c => hc (heq ▸ hd)
    rw [List.eraseDups_cons, hfilter, eraseDups_of_nodup hcs]

/-- **Calls with words leave each class once**, in the order in which they came first. -/
theorem present_addAll (hlist : (present list).Nodup) (hcs : ∀ c ∈ cs, IsWord c.toList) :
    present (addAll list cs) = (present list ++ cs).eraseDups := by
  induction cs using List.reverseRecOn with
  | nil => rw [List.append_nil, eraseDups_of_nodup hlist]; rfl
  | append_singleton cs c ih =>
    have hc : IsWord c.toList := hcs c (List.mem_append_right _ (List.mem_singleton_self c))
    rw [addAll_concat, present_addClass, ih fun d hd => hcs d (List.mem_append_left _ hd),
      classes_of_isWord hc, ← List.append_assoc, eraseDups_concat]

/-- What was written by a call with a word is how its list is written. -/
theorem intercalate_present (hc : IsWord c.toList) :
    " ".intercalate (present (some (addClass list c))) = addClass list c := by
  rw [present_addClass, classes_of_isWord hc, ← addClass_eq]

/-- A call with a word that was among the arguments changes nothing. -/
theorem addClass_addAll (hlist : (present list).Nodup) (hcs : ∀ c ∈ cs, IsWord c.toList)
    (hc : c ∈ cs) : some (addClass (addAll list cs) c) = addAll list cs := by
  have hmem : c ∈ present (addAll list cs) := by
    rw [present_addAll hlist hcs, List.mem_eraseDups]
    exact List.mem_append_right _ hc
  obtain ⟨init, last, rfl⟩ := (List.eq_nil_or_concat' cs).resolve_left (List.ne_nil_of_mem hc)
  have hlast : IsWord last.toList := hcs last (List.mem_append_right _ (List.mem_singleton_self _))
  rw [addClass_of_mem hmem, addAll_concat, intercalate_present hlast]

/-! ## Calls with a blank text

A blank text is never among the words, so every call adds it.  But the list is read anew each time,
and nothing is left in it then of the blank text that the call before has added, so that the same is
written again. -/

/-- Calls with a blank text add no class. -/
theorem present_addAll_blank (hblank : allBlank c.toList = true) (hcs : ∀ d ∈ cs, d = c) :
    present (addAll list cs) = present list := by
  induction cs using List.reverseRecOn with
  | nil => rfl
  | append_singleton cs d ih =>
    have hd : d = c := hcs d (List.mem_append_right _ (List.mem_singleton_self d))
    rw [addAll_concat, present_addClass, ih fun e he => hcs e (List.mem_append_left _ he), hd,
      classes_eq_nil_iff.2 hblank, List.append_nil, ite_self]

theorem addClass_addAll_blank (hblank : allBlank c.toList = true) (hcs : ∀ d ∈ cs, d = c)
    (hne : cs ≠ []) : some (addClass (addAll list cs) c) = addAll list cs := by
  obtain ⟨init, last, rfl⟩ := (List.eq_nil_or_concat' cs).resolve_left hne
  have hlast : last = c := hcs last (List.mem_append_right _ (List.mem_singleton_self _))
  have hinit : ∀ d ∈ init, d = c := fun d hd => hcs d (List.mem_append_left _ hd)
  rw [addClass_eq, present_addAll_blank hblank hcs, addAll_concat, addClass_eq,
    present_addAll_blank hblank hinit, hlast]

/-! ## Calls that come again

That a call changes nothing when it is made again is seen from its argument alone.  The two kinds of
arguments above are the only ones for which this is so. -/

/-- A blank text at the end of a list that is not empty shows in how it is written. -/
theorem intercalate_concat_ne {entries : List String} (hne : entries ≠ []) (c : String) :
    " ".intercalate (entries ++ [c]) ≠ " ".intercalate entries := by
  intro heq
  have hlength := congrArg String.length heq
  rw [String.intercalate_append_of_ne_nil hne (List.cons_ne_nil c []), String.length_append,
    String.length_append] at hlength
  have hsep : " ".length = 1 := rfl
  omega

/-- The last entry can be read off how a list is written. -/
theorem intercalate_concat_inj {entries : List String} {c d : String}
    (h : " ".intercalate (entries ++ [c]) = " ".intercalate (entries ++ [d])) : c = d := by
  cases entries with
  | nil => simpa using h
  | cons entry rest =>
    have hne : entry :: rest ≠ [] := List.cons_ne_nil entry rest
    rw [String.intercalate_append_of_ne_nil hne (List.cons_ne_nil c []),
      String.intercalate_append_of_ne_nil hne (List.cons_ne_nil d []),
      String.intercalate_singleton, String.intercalate_singleton] at h
    exact String.append_right_inj _ |>.1 h

/-- What is no class of an attribute that a call with it does not change is blank. -/
theorem allBlank_of_addClass (hsame : some (addClass list c) = list) (hc : c ∉ present list) :
    allBlank c.toList = true := by
  have hpresent := present_addClass list c
  rw [hsame, if_neg hc] at hpresent
  exact classes_eq_nil_iff.1 (List.append_right_eq_self.1 hpresent.symm)

/-- **Calls that change nothing when they come again** are calls with words, or with one blank
text. -/
theorem isWord_or_blank (hsame : ∀ c ∈ cs, some (addClass list c) = list) :
    (∀ c ∈ cs, IsWord c.toList) ∨
      ∃ blank : String, allBlank blank.toList = true ∧ ∀ c ∈ cs, c = blank := by
  by_cases hall : ∀ c ∈ cs, c ∈ present list
  · exact .inl fun c hc => isWord_of_mem_present (hall c hc)
  · obtain ⟨blank, hblank, hnew⟩ : ∃ blank ∈ cs, blank ∉ present list := by simpa using hall
    refine .inr ⟨blank, allBlank_of_addClass (hsame blank hblank) hnew, fun c hc => ?_⟩
    have hwritten : addClass list c = addClass list blank :=
      Option.some.inj ((hsame c hc).trans (hsame blank hblank).symm)
    rw [addClass_of_notMem hnew] at hwritten
    by_cases hmem : c ∈ present list
    · rw [addClass_of_mem hmem] at hwritten
      exact absurd hwritten.symm (intercalate_concat_ne (List.ne_nil_of_mem hmem) blank)
    · rw [addClass_of_notMem hmem] at hwritten
      exact intercalate_concat_inj hwritten

end Drawing

namespace Scene

open Drawing (Document NodeId classes present addAll)

variable {id : NodeId}

/-! ## Calls on an element

From texts to documents: each call is carried out on the element, and what it does to the document
is what it does to the attribute. -/

/-- Calls of `addClass` on a node, one for each text. -/
def addClasses (doc : Document) (id : NodeId) (cs : List String) : Except Fault Document :=
  cs.foldlM (fun doc c => Prod.fst <$> apply doc id .addClass [.text c]) doc

/-- Every call is carried out, and the attribute is the one after calls on texts. -/
theorem addClasses_ok : ∀ (cs : List String) {doc : Document}, (doc.tag? id).isSome = true →
    ∃ now, addClasses doc id cs = .ok now ∧ (now.tag? id).isSome = true ∧
      now.attr? id "class" = addAll (doc.attr? id "class") cs
  | [], doc, hid => ⟨doc, rfl, hid, rfl⟩
  | c :: cs, doc, hid => by
    have hnext : ((doc.setAttr id "class"
        (Drawing.addClass (doc.attr? id "class") c)).tag? id).isSome = true := by simpa using hid
    obtain ⟨now, hnow, htag, hattr⟩ := addClasses_ok cs hnext
    rw [Document.attr?_setAttr_self hid] at hattr
    exact ⟨now, hnow, htag, hattr⟩

/-- **Classes are not repeated when each call names one.**  On an element whose list repeats no
class, calls of `addClass` are all carried out.  Afterwards

* the list has each earlier class, and each class that the calls name, once, in the order in which
  they came first, and
* each call would leave the attribute as it is if it came again,

just if each call has one word as its argument, or all of them have one and the same blank text. -/
theorem addClasses_classes (doc : Document) (id : NodeId) (cs : List String)
    (hid : (doc.tag? id).isSome = true) (hlist : (present (doc.attr? id "class")).Nodup) :
    ∃ now, addClasses doc id cs = .ok now ∧
      ((present (now.attr? id "class")
          = (present (doc.attr? id "class") ++ cs.flatMap classes).eraseDups ∧
        ∀ c ∈ cs, ∃ next, addClasses now id [c] = .ok next ∧
          next.attr? id "class" = now.attr? id "class")
      ↔ (∀ c ∈ cs, IsWord c.toList) ∨
        ∃ blank : String, allBlank blank.toList = true ∧ ∀ c ∈ cs, c = blank) := by
  obtain ⟨now, hnow, htag, hattr⟩ := addClasses_ok cs hid
  have hagain : ∀ c, ∃ next, addClasses now id [c] = .ok next ∧
      next.attr? id "class" = some (Drawing.addClass (addAll (doc.attr? id "class") cs) c) :=
    fun c => by
      obtain ⟨next, hnext, -, hclass⟩ := addClasses_ok [c] htag
      exact ⟨next, hnext, hattr ▸ hclass⟩
  refine ⟨now, hnow, ?_⟩
  rw [hattr]
  constructor
  -- if adding any of them again changes nothing, each is a word, or all of them are the one blank
  -- text
  · rintro ⟨-, hsame⟩
    have hkept : ∀ c ∈ cs, some (Drawing.addClass (addAll (doc.attr? id "class") cs) c)
        = addAll (doc.attr? id "class") cs := fun c hc => by
      obtain ⟨next, hnext, hclass⟩ := hsame c hc
      obtain ⟨other, hother, hadded⟩ := hagain c
      cases Except.ok.inj (hnext.symm.trans hother)
      exact hadded.symm.trans hclass
    exact Drawing.isWord_or_blank hkept
  · rintro (hwords | ⟨blank, hblank, hall⟩)
    · rw [Drawing.flatMap_classes hwords]
      refine ⟨Drawing.present_addAll hlist hwords, fun c hc => ?_⟩
      obtain ⟨next, hnext, hclass⟩ := hagain c
      exact ⟨next, hnext, hclass.trans (Drawing.addClass_addAll hlist hwords hc)⟩
    · have hnone : cs.flatMap classes = [] := List.flatMap_eq_nil_iff.2 fun c hc =>
        hall c hc ▸ Drawing.classes_eq_nil_iff.2 hblank
      rw [hnone, List.append_nil, Drawing.eraseDups_of_nodup hlist]
      refine ⟨Drawing.present_addAll_blank hblank hall, fun c hc => ?_⟩
      obtain ⟨next, hnext, hclass⟩ := hagain c
      rw [hall c hc] at hclass
      exact ⟨next, hall c hc ▸ hnext, hclass.trans
        (Drawing.addClass_addAll_blank hblank hall (List.ne_nil_of_mem hc))⟩

/-- The classes `b` and `a` that an element has, and then `a` and `c`. -/
theorem svg_addClasses_classes :
    let doc := (Document.withRoot "svg").setAttr Document.root "class" "b  a"
    (doc.tag? Document.root).isSome = true ∧ (present (doc.attr? Document.root "class")).Nodup ∧
      ∃ now, addClasses doc Document.root ["a", "c"] = .ok now ∧
        ((present (now.attr? Document.root "class")
            = (present (doc.attr? Document.root "class") ++ ["a", "c"].flatMap classes).eraseDups ∧
          ∀ c ∈ ["a", "c"], ∃ next, addClasses now Document.root [c] = .ok next ∧
            next.attr? Document.root "class" = now.attr? Document.root "class")
        ↔ (∀ c ∈ ["a", "c"], IsWord c.toList) ∨
          ∃ blank : String, allBlank blank.toList = true ∧ ∀ c ∈ ["a", "c"], c = blank) :=
  ⟨by decide, by decide, addClasses_classes _ _ _ (by decide) (by decide)⟩

/-- **A class can come twice.**  The second argument has the first as one of its words. -/
theorem exists_class_twice : ∃ (doc now : Document) (id : NodeId),
    doc.tag? id = some "svg" ∧ doc.attr? id "class" = none ∧
      addClasses doc id ["a", "a b"] = .ok now ∧ now.attr? id "class" = some "a a b" ∧
      ¬(present (now.attr? id "class")).Nodup :=
  ⟨Document.withRoot "svg", _, Document.root, rfl, rfl, rfl, rfl, by decide⟩

end Scene
end Frontispiece
