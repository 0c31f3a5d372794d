import Frontispiece.Proofs.Drawing.Frame
import Frontispiece.Proofs.Text.Pieces
import Frontispiece.Scene.Draw
import Mathlib.Data.List.DropRight

/-!
# Styles

A call of `css` reads the attribute `style`, changes some of its properties, and writes it anew.  The
marks between the declarations are not escaped, so a semicolon in a value ends the declaration for
the next call, which then writes the value without what came after it: see `exists_value_cut`.

A list of changes, each to one property, says which properties there should be in the end.

## What is here

* `lastGiven`, `sinceSet` — what a list of changes says of a property.
* `Current` — **the properties of a style are those that were set and not removed since**, each with
  its last value, in the order in which they were set since they were last removed.
* `current_foldl` — properties that are changed one after the other are current.
* `readStyle_writeStyle` — a style without semicolons is read as it was written.
* `css_current` — the style is current after every call just if no value has a semicolon.

There are two specifications here.  One says what a list of changes should lead to, without any map
or text; it is defined from the end of the list, where the last change to a property decides.  The
other says when a style survives being written and read again.  The theorem puts them together and
is exact: once a value with a semicolon was given, the style that is read is not the one that was
asked for.
-/

set_option autoImplicit false

namespace Frontispiece

open Drawing (Document NodeId readStyle writeStyle)

namespace Scene

/-! ## Changes of a style

Which properties a style should have, and in which order, is said from the list of all changes
alone.  The order is that in which they were set, counted from when they were last taken away. -/

/-- A property set to a value, or taken away. -/
abbrev Change : Type := String × Option String

/-- The value that a property was given last, unless it was taken away since. -/
def lastGiven (property : String) (changes : List Change) : Option String :=
  (changes.filter fun change => change.1 == property).getLast?.bind Prod.snd

/-- The changes from the one on that first set a property after it was last taken away. -/
def sinceSet (property : String) (changes : List Change) : List Change :=
  (changes.rtakeWhile fun change => change != (property, none)).dropWhile fun change =>
    change.1 != property

/-- A style has the properties that were set and not taken away since, and no others, each with the
value that it was given last.  A property that was set earlier since it was last taken away comes
earlier. -/
structure Current (changes : List Change) (style : Fields String) : Prop where
  mem_iff : ∀ property value,
    (property, value) ∈ style ↔ lastGiven property changes = some value
  order : style.keys.Pairwise fun property later =>
    (sinceSet later changes).length < (sinceSet property changes).length

/-- A change made to a style. -/
def Change.put (style : Fields String) (change : Change) : Fields String :=
  match change.2 with
  | some value => style.insert change.1 value
  | none => style.erase change.1

variable {changes : List Change} {change : Change} {style : Fields String} {property : String}

theorem lastGiven_concat (property : String) (changes : List Change) (change : Change) :
    lastGiven property (changes ++ [change])
      = if change.1 = property then change.2 else lastGiven property changes := by
  rw [lastGiven, List.filter_append]
  by_cases h : change.1 = property
  · simp [h]
  · simp [h, lastGiven]

/-- The last changes say what their properties are, when they are to distinct properties. -/
theorem lastGiven_append (changes : List Change) {last : List Change}
    (hdistinct : (last.map Prod.fst).Nodup) (hmem : change ∈ last) :
    lastGiven change.1 (changes ++ last) = change.2 := by
  obtain ⟨before, after, rfl⟩ := List.append_of_mem hmem
  rw [List.map_append, List.map_cons] at hdistinct
  have hnew : change.1 ∉ after.map Prod.fst := (List.nodup_cons.1 (List.nodup_append.1 hdistinct).2.1).1
  have hafter : after.filter (fun other => other.1 == change.1) = [] :=
    List.filter_eq_nil_iff.2 fun other hother heq =>
      hnew (eq_of_beq heq ▸ List.mem_map_of_mem hother)
  rw [lastGiven, List.filter_append, List.filter_append, List.filter_cons_of_pos (by simp), hafter,
    ← List.append_assoc, List.getLast?_concat]
  rfl

/-- What is given last is given. -/
theorem mem_of_lastGiven {value : String} (h : lastGiven property changes = some value) :
    (property, some value) ∈ changes := by
  obtain ⟨⟨name, given⟩, hlast, hgiven⟩ := Option.bind_eq_some_iff.1 h
  obtain ⟨hmem, hname⟩ := List.mem_filter.1 (List.mem_of_getLast? hlast)
  cases hgiven
  exact eq_of_beq hname ▸ hmem

/-- A change other than taking a property away makes the changes since it was set longer, once there
are any. -/
theorem sinceSet_concat (hkeep : change ≠ (property, none)) :
    sinceSet property (changes ++ [change])
      = if (sinceSet property changes).isEmpty && change.1 != property then []
        else sinceSet property changes ++ [change] := by
  rw [sinceSet, List.rtakeWhile_concat, if_pos (bne_iff_ne.2 hkeep), List.dropWhile_append]
  change (if (sinceSet property changes).isEmpty = true then _
    else sinceSet property changes ++ [change]) = _
  cases hsince : sinceSet property changes with
  | nil =>
    by_cases h : change.1 = property
    · simp [h]
    · simp [h]
  | cons first rest => rfl

theorem sinceSet_removed (property : String) (changes : List Change) :
    sinceSet property (changes ++ [(property, none)]) = [] := by
  rw [sinceSet, List.rtakeWhile_concat_neg _ _ _ (by simp)]
  rfl

/-- A property has a value just if there are changes since it was set. -/
theorem sinceSet_eq_nil_iff (property : String) (changes : List Change) :
    sinceSet property changes = [] ↔ lastGiven property changes = none := by
  induction changes using List.reverseRecOn with
  | nil => exact ⟨fun _ => rfl, fun _ => rfl⟩
  | append_singleton changes change ih =>
    rw [lastGiven_concat]
    by_cases hremoved : change = (property, none)
    · rw [hremoved, sinceSet_removed]
      simp
    · rw [sinceSet_concat hremoved]
      by_cases h : change.1 = property
      · have hvalue : change.2 ≠ none := fun hnone => hremoved (Prod.ext h hnone)
        simp [h, hvalue]
      · rw [if_neg h, ← ih]
        simp [h]

/-- What the changes since a property was set are after another change, when it had a value. -/
theorem length_sinceSet_concat (hset : lastGiven property changes ≠ none)
    (hkeep : change ≠ (property, none)) :
    (sinceSet property (changes ++ [change])).length = (sinceSet property changes).length + 1 := by
  have hne : sinceSet property changes ≠ [] := fun h =>
    hset ((sinceSet_eq_nil_iff property changes).1 h)
  rw [sinceSet_concat hkeep, List.isEmpty_eq_false_iff.2 hne, Bool.false_and, if_neg (by simp),
    List.length_append, List.length_singleton]

/-! ## Current styles

The program keeps properties in a map that remembers insertion.  By induction on the changes, this
map is what the list of changes says it should be. -/

theorem get?_put (style : Fields String) (change : Change) (property : String) :
    (change.put style).get? property
      = if change.1 = property then change.2 else style.get? property := by
  obtain ⟨name, value⟩ := change
  cases value with
  | none => exact Fields.get?_erase style name property
  | some value =>
    change (style.insert name value).get? property = _
    split
    · next h => rw [← h, Fields.get?_insert_self]
    · next h => rw [Fields.get?_insert_of_ne (Ne.symm h)]

theorem nodup_put (h : style.keys.Nodup) (change : Change) : (change.put style).keys.Nodup := by
  obtain ⟨name, value⟩ := change
  cases value with
  | none => exact Fields.erase_nodup name h
  | some value => exact Fields.insert_nodup name value h

namespace Current

theorem nodup (h : Current changes style) : style.keys.Nodup :=
  h.order.imp fun {property later} hlt (heq : property = later) =>
    Nat.lt_irrefl _ (heq ▸ hlt)

theorem get?_eq (h : Current changes style) (property : String) :
    style.get? property = lastGiven property changes :=
  Option.ext fun value => (Fields.get?_eq_some_iff h.nodup).trans (h.mem_iff property value)

theorem mem_keys_iff (h : Current changes style) :
    property ∈ style.keys ↔ lastGiven property changes ≠ none := by
  rw [← h.get?_eq, ← Fields.get?_isSome_iff, Option.isSome_iff_ne_none]

/-- Properties that keep their values keep their order. -/
theorem pairwise_concat (h : Current changes style) {kept : List String}
    (hkept : kept.Sublist style.keys) (hkeep : ∀ property ∈ kept, change ≠ (property, none)) :
    kept.Pairwise fun property later =>
      (sinceSet later (changes ++ [change])).length
        < (sinceSet property (changes ++ [change])).length := by
  refine (h.order.sublist hkept).imp_of_mem fun {property later} hproperty hlater hlt => ?_
  have hset : ∀ property ∈ kept, lastGiven property changes ≠ none := fun property hmem =>
    h.mem_keys_iff.1 (hkept.subset hmem)
  rw [length_sinceSet_concat (hset property hproperty) (hkeep property hproperty),
    length_sinceSet_concat (hset later hlater) (hkeep later hlater)]
  exact Nat.succ_lt_succ hlt

/-- **A change keeps a style current.** -/
theorem put (h : Current changes style) (change : Change) :
    Current (changes ++ [change]) (change.put style) where
  mem_iff property value := by
    rw [← Fields.get?_eq_some_iff (nodup_put h.nodup change), get?_put, lastGiven_concat, h.get?_eq]
  order := by
    obtain ⟨name, value⟩ := change
    cases value with
    | none =>
      change (style.erase name).keys.Pairwise _
      rw [Fields.keys_erase]
      refine h.pairwise_concat List.filter_sublist fun property hproperty heq => ?_
      have hne : property ≠ name := by simpa using (List.mem_filter.1 hproperty).2
      exact hne (congrArg Prod.fst heq).symm
    | some value =>
      have hkeep : ∀ property, (name, some value) ≠ (property, (none : Option String)) :=
        fun property heq => by cases heq
      have hold := h.pairwise_concat (List.Sublist.refl style.keys) fun property _ => hkeep property
      change (style.insert name value).keys.Pairwise _
      rw [Fields.keys_insert]
      split
      · exact hold
      · next hnew =>
        have hunset : sinceSet name changes = [] :=
          (sinceSet_eq_nil_iff name changes).2 (not_not.1 fun hset => hnew (h.mem_keys_iff.2 hset))
        have hfirst : (sinceSet name (changes ++ [(name, some value)])).length = 1 := by
          simp [sinceSet_concat (hkeep name), hunset]
        refine List.pairwise_append.2 ⟨hold, List.pairwise_singleton _ _,
          fun property hproperty last hlast => ?_⟩
        have hset := h.mem_keys_iff.1 hproperty
        have hne : sinceSet property changes ≠ [] := fun hnil =>
          hset ((sinceSet_eq_nil_iff property changes).1 hnil)
        rw [List.mem_singleton.1 hlast, hfirst, length_sinceSet_concat hset (hkeep property)]
        exact Nat.succ_lt_succ (List.length_pos_iff.2 hne)

end Current

/-- **Properties that are changed one after the other are current.** -/
theorem current_foldl (changes : List Change) : Current changes (changes.foldl Change.put []) := by
  induction changes using List.reverseRecOn with
  | nil => exact ⟨fun _ _ => by simp [lastGiven], List.Pairwise.nil⟩
  | append_singleton changes change ih =>
    rw [List.foldl_append]
    exact ih.put change

end Scene

/-! ## Written styles

The style goes through the attribute between two calls.  What is written there is read back if no
name has a mark of a style in it, no value has a semicolon, and no blanks are at the ends of either.
-/

namespace Drawing

/-- A name that a declaration can give: it has characters, none of them a mark of a style, and no
blank ones at its ends. -/
structure IsProperty (name : String) : Prop where
  nonempty : name.toList ≠ []
  colonless : ':' ∉ name.toList
  free : ';' ∉ name.toList
  trimmed : Text.trimmed name = name

instance (name : String) : Decidable (IsProperty name) :=
  decidable_of_iff (name.toList ≠ [] ∧ ':' ∉ name.toList ∧ ';' ∉ name.toList ∧
      Text.trimmed name = name)
    ⟨fun ⟨nonempty, colonless, free, trimmed⟩ => ⟨nonempty, colonless, free, trimmed⟩,
      fun h => ⟨h.nonempty, h.colonless, h.free, h.trimmed⟩⟩

/-- A declaration that is read as it was written. -/
structure Legible (property value : String) : Prop where
  property : IsProperty property
  trimmed : Text.trimmed value = value
  free : ';' ∉ value.toList

theorem trim_of_trimmed {s : String} (h : Text.trimmed s = s) : Text.trim s.toList = s.toList := by
  rw [← String.toList_ofList (l := Text.trim s.toList)]
  exact congrArg String.toList h

/-- **Reading a declaration undoes writing it.** -/
theorem declaration?_written {property value : String} (hproperty : IsProperty property)
    (hvalue : Text.trimmed value = value) :
    declaration? (property ++ ":" ++ value).toList = some (property, value) := by
  have htext : (property ++ ":" ++ value).toList = property.toList ++ ':' :: value.toList := by
    simp
  have hcolonless : ∀ c ∈ property.toList, (c == ':') = false := fun c hc => by
    simpa using fun heq : c = ':' => hproperty.colonless (heq ▸ hc)
  have hname := trim_of_trimmed hproperty.trimmed
  rw [htext, declaration?, Text.cutWhere?_append ':' rfl _ hcolonless]
  dsimp only
  rw [hname, if_neg (by simpa using hproperty.nonempty), trim_of_trimmed hvalue,
    String.ofList_toList, String.ofList_toList]

/-- The declarations of a style are read one by one. -/
theorem filterMap_declaration? : ∀ {style : Fields String},
    (∀ declaration ∈ style, Legible declaration.1 declaration.2) →
      (style.flatMap fun declaration => Text.splitOn (· == ';')
        (declaration.1 ++ ":" ++ declaration.2).toList).filterMap declaration? = style
  | [], _ => rfl
  | (property, value) :: rest, h => by
    have hfirst : Legible property value := h _ List.mem_cons_self
    have hfree : ∀ c ∈ (property ++ ":" ++ value).toList, (c == ';') = false := fun c hc => by
      have hmem : c ∈ property.toList ∨ c = ':' ∨ c ∈ value.toList := by simpa using hc
      rcases hmem with hc | rfl | hc
      · simpa using fun heq : c = ';' => hfirst.property.free (heq ▸ hc)
      · rfl
      · simpa using fun heq : c = ';' => hfirst.free (heq ▸ hc)
    rw [List.flatMap_cons, Text.splitOn_of_free hfree, List.singleton_append,
      List.filterMap_cons_some (declaration?_written hfirst.property hfirst.trimmed),
      filterMap_declaration? fun declaration hmem => h declaration (List.mem_cons_of_mem _ hmem)]

/-- **A style is read as it was written** when no property comes twice. -/
theorem readStyle_writeStyle {style : Fields String} (hnodup : style.keys.Nodup)
    (hlegible : ∀ declaration ∈ style, Legible declaration.1 declaration.2) :
    readStyle (writeStyle style) = style := by
  have hcut : ∀ s t : List Char, Text.splitOn (· == ';') (s ++ ';' :: t)
      = Text.splitOn (· == ';') s ++ Text.splitOn (· == ';') t :=
    fun s t => Text.splitOn_append rfl t s
  have hpieces : (Text.splitOn (· == ';') (writeStyle style).toList).filterMap declaration?
      = style := by
    cases style with
    | nil => rfl
    | cons first rest =>
      have hsplit : Text.splitOn (· == ';') (writeStyle (first :: rest)).toList
          = ((first :: rest).map fun declaration => declaration.1 ++ ":" ++ declaration.2).flatMap
            fun piece => Text.splitOn (· == ';') piece.toList :=
        Text.cut_intercalate rfl hcut (List.cons_ne_nil _ _)
      rw [hsplit, List.flatMap_map]
      exact filterMap_declaration? hlegible
  rw [readStyle, hpieces]
  exact Fields.foldl_insert_of_nodup style hnodup

/-- No value that is read has a semicolon. -/
theorem free_of_mem_readStyle {s property value : String} (h : (property, value) ∈ readStyle s) :
    ';' ∉ value.toList := by
  obtain ⟨piece, hpiece, hread⟩ := List.mem_filterMap.1 (Fields.mem_of_mem_ofList h)
  rw [declaration?] at hread
  split at hread
  · cases hread
  · next before after hcut =>
    dsimp only at hread
    split at hread
    · cases hread
    · cases hread
      obtain ⟨mark, rfl⟩ := Text.eq_append_of_cutWhere? hcut
      rw [String.toList_ofList]
      intro hmem
      have hafter : ';' ∈ after := (Text.trim_sublist after).subset hmem
      have hfree := Text.free_of_mem_splitOn hpiece ';' (by simp [hafter])
      cases hfree

end Drawing

namespace Scene

open Drawing (IsProperty Legible)

/-! ## Calls on an element

As long as every value can be read back, calls make one list of changes.  The condition on values is
the one that the theorem has to state, and a value with a semicolon shows why. -/

/-- The arguments of a call of `css`. -/
inductive StyleCall where
  | one (property value : String)
  | many (rules : Fields Json)

namespace StyleCall

/-- The arguments as the method takes them. -/
def args : StyleCall → List Arg
  | one property value => [.text property, .text value]
  | many rules => [.map rules]

/-- The changes that a call asks for; null takes a property away. -/
def changes : StyleCall → List Change
  | one property value => [(property, some value)]
  | many rules => rules.map fun rule => (rule.1, scalarText? rule.2)

/-- The names are names of properties, no value has blanks at its ends, and a map has no property
twice. -/
structure Proper (call : StyleCall) : Prop where
  property : ∀ change ∈ call.changes, IsProperty change.1
  trimmed : ∀ change ∈ call.changes, ∀ value ∈ change.2, Text.trimmed value = value
  distinct : (call.changes.map Prod.fst).Nodup

instance (call : StyleCall) : Decidable call.Proper :=
  decidable_of_iff ((∀ change ∈ call.changes, IsProperty change.1) ∧
      (∀ change ∈ call.changes, ∀ value ∈ change.2, Text.trimmed value = value) ∧
      (call.changes.map Prod.fst).Nodup)
    ⟨fun ⟨property, trimmed, distinct⟩ => ⟨property, trimmed, distinct⟩,
      fun h => ⟨h.property, h.trimmed, h.distinct⟩⟩

end StyleCall

/-- The style of a node as it is read. -/
def styleOf (doc : Document) (id : NodeId) : Fields String :=
  readStyle ((doc.attr? id "style").getD "")

/-- Calls of `css` on a node. -/
def cssAll (doc : Document) (id : NodeId) (calls : List StyleCall) : Except Fault Document :=
  calls.foldlM (fun doc call => Prod.fst <$> apply doc id .css call.args) doc

/-- A call makes its changes one after the other. -/
theorem apply_css (doc : Document) (id : NodeId) (call : StyleCall) :
    apply doc id .css call.args
      = .ok (restyle doc id (call.changes.foldl Change.put), id) := by
  cases call with
  | one property value => rfl
  | many rules =>
    have hdeclare : declareAll rules
        = fun style => (StyleCall.many rules).changes.foldl Change.put style := by
      funext style
      rw [StyleCall.changes, List.foldl_map]
      rfl
    change Except.ok (restyle doc id (declareAll rules), id) = _
    rw [hdeclare]

/-- The document after calls. -/
theorem cssAll_eq (id : NodeId) : ∀ (calls : List StyleCall) (doc : Document),
    cssAll doc id calls = .ok (calls.foldl
      (fun doc call => restyle doc id (call.changes.foldl Change.put)) doc)
  | [], _ => rfl
  | call :: calls, doc => by
    rw [cssAll, List.foldlM_cons, apply_css, List.foldl_cons]
    exact cssAll_eq id calls _

theorem cssAll_concat {doc now : Document} {id : NodeId} {calls : List StyleCall}
    (h : cssAll doc id calls = .ok now) (call : StyleCall) :
    cssAll doc id (calls ++ [call])
      = .ok (restyle now id (call.changes.foldl Change.put)) := by
  rw [cssAll_eq] at h ⊢
  rw [List.foldl_append, Except.ok.inj h]
  rfl

/-- A style that is legible is what the next call reads. -/
theorem styleOf_restyle {doc : Document} {id : NodeId} (hid : (doc.tag? id).isSome = true)
    {change : Fields String → Fields String} (hnodup : (change (styleOf doc id)).keys.Nodup)
    (hlegible : ∀ declaration ∈ change (styleOf doc id), Legible declaration.1 declaration.2) :
    styleOf (restyle doc id change) id = change (styleOf doc id) := by
  rw [styleOf, restyle, Document.attr?_setAttr_self hid]
  exact Drawing.readStyle_writeStyle hnodup hlegible

variable {doc : Document} {id : NodeId} {calls : List StyleCall}

/-- **Calls without semicolons** leave the properties that they set one after the other. -/
theorem styleOf_cssAll (hid : (doc.tag? id).isSome = true) (hstyle : doc.attr? id "style" = none)
    (hcalls : ∀ call ∈ calls, call.Proper)
    (hfree : ∀ call ∈ calls, ∀ change ∈ call.changes, ∀ value ∈ change.2, ';' ∉ value.toList) :
    ∃ now, cssAll doc id calls = .ok now ∧ (now.tag? id).isSome = true ∧
      styleOf now id = (calls.flatMap StyleCall.changes).foldl Change.put [] := by
  induction calls using List.reverseRecOn with
  | nil => exact ⟨doc, rfl, hid, by rw [styleOf, hstyle]; rfl⟩
  | append_singleton calls call ih =>
    obtain ⟨now, hnow, htag, hread⟩ :=
      ih (fun call hmem => hcalls call (List.mem_append_left _ hmem))
        fun call hmem => hfree call (List.mem_append_left _ hmem)
    have hcurrent := current_foldl ((calls ++ [call]).flatMap StyleCall.changes)
    have hchange : ((calls ++ [call]).flatMap StyleCall.changes).foldl Change.put []
        = call.changes.foldl Change.put (styleOf now id) := by
      rw [List.flatMap_append, List.flatMap_singleton, List.foldl_append, hread]
    have hlegible : ∀ declaration ∈ call.changes.foldl Change.put (styleOf now id),
        Legible declaration.1 declaration.2 := fun (property, value) hmem => by
      rw [← hchange] at hmem
      have hgiven := (hcurrent.mem_iff property value).1 hmem
      obtain ⟨other, hother, hin⟩ := List.mem_flatMap.1 (mem_of_lastGiven hgiven)
      exact ⟨(hcalls other hother).property _ hin, (hcalls other hother).trimmed _ hin value rfl,
        hfree other hother _ hin value rfl⟩
    refine ⟨_, cssAll_concat hnow call, by simpa [restyle] using htag, ?_⟩
    rw [hchange]
    exact styleOf_restyle htag (hchange ▸ hcurrent.nodup) hlegible

/-- **A style has what was asked for as long as no value has a semicolon.**  On an element without a
style, proper calls of `css` are all carried out.  After each of them the attribute, when it is read,
has the properties that were set and not removed since, each with the value that it was given last,
in the order in which they were set since they were last removed, just if none of the calls gives a
value with a semicolon in it. -/
theorem css_current (doc : Document) (id : NodeId) (calls : List StyleCall)
    (hid : (doc.tag? id).isSome = true) (hstyle : doc.attr? id "style" = none)
    (hcalls : ∀ call ∈ calls, call.Proper) :
    (∃ now, cssAll doc id calls = .ok now) ∧
      ((∀ made, made <+: calls → ∃ now, cssAll doc id made = .ok now ∧
          Current (made.flatMap StyleCall.changes) (styleOf now id))
        ↔ ∀ call ∈ calls, ∀ change ∈ call.changes, ∀ value ∈ change.2, ';' ∉ value.toList) := by
  refine ⟨⟨_, cssAll_eq id calls doc⟩, fun hcurrent call hcall change hchange value hvalue => ?_,
    fun hfree made hmade => ?_⟩
  · -- After the call that gives the value the style is read, and what is read has no semicolon.
    obtain ⟨before, after, rfl⟩ := List.append_of_mem hcall
    obtain ⟨now, -, hnow⟩ := hcurrent (before ++ [call]) ⟨after, by simp⟩
    have hgiven : lastGiven change.1 ((before ++ [call]).flatMap StyleCall.changes) = some value := by
      rw [List.flatMap_append, List.flatMap_singleton,
        lastGiven_append _ (hcalls call hcall).distinct hchange, hvalue]
    exact Drawing.free_of_mem_readStyle ((hnow.mem_iff change.1 value).2 hgiven)
  · obtain ⟨now, hnow, -, hread⟩ := styleOf_cssAll hid hstyle
      (fun call hmem => hcalls call (hmade.subset hmem)) fun call hmem => hfree call (hmade.subset hmem)
    exact ⟨now, hnow, hread ▸ current_foldl _⟩

/-- A property that is set, taken away with another set, and set again. -/
theorem svg_css_current :
    let doc := Document.withRoot "svg"
    let calls : List StyleCall :=
      [.one "fill" "red", .many [("stroke", .string "blue"), ("fill", .null)], .one "fill" "green"]
    (doc.tag? Document.root).isSome = true ∧ doc.attr? Document.root "style" = none ∧
      (∀ call ∈ calls, call.Proper) ∧ (∃ now, cssAll doc Document.root calls = .ok now) ∧
      ((∀ made, made <+: calls → ∃ now, cssAll doc Document.root made = .ok now ∧
          Current (made.flatMap StyleCall.changes) (styleOf now Document.root))
        ↔ ∀ call ∈ calls, ∀ change ∈ call.changes, ∀ value ∈ change.2, ';' ∉ value.toList) :=
  ⟨rfl, rfl, by with_unfolding_all decide,
    css_current _ _ _ rfl rfl (by with_unfolding_all decide)⟩

/-- **A value can be cut by a call that does not name its property.**  The value is that of an
embedded image. -/
theorem exists_value_cut : ∃ (doc now : Document) (id : NodeId) (calls : List StyleCall),
    doc.tag? id = some "svg" ∧ doc.attr? id "style" = none ∧ (∀ call ∈ calls, call.Proper) ∧
      calls = [.one "background" "url(data:image/png;base64,AAAA)", .one "fill" "red"] ∧
      cssAll doc id calls = .ok now ∧
      now.attr? id "style" = some "background:url(data:image/png;fill:red" ∧
      ¬Current (calls.flatMap StyleCall.changes) (styleOf now id) := by
  refine ⟨Document.withRoot "svg", _, Document.root, _, rfl, rfl, ?_, rfl, cssAll_eq _ _ _,
    by with_unfolding_all rfl, fun h => ?_⟩
  · with_unfolding_all decide
  · have hvalue := h.mem_iff "background" "url(data:image/png;base64,AAAA)"
    revert hvalue
    with_unfolding_all decide

end Scene
end Frontispiece
