import Frontispiece.Proofs.Json.Fields
import Frontispiece.Proofs.Markup.Escape
import Frontispiece.Proofs.Text.Pieces

/-!
# Tags

What the writer makes of a start tag, the reader takes apart again: `tagEnd?` finds its end, because
angle brackets and quotes are escaped in values, and `attributes?` finds the names and values.  Names
are written as they are, so that this needs names in which no tag ends and no quote opens.

## What is here

* `Readable` — what the reader takes for a tag and its attributes; their names may be odd.
* `Plain`, `Writable` — names that can be written.  The names of XML can, by `Writable.of_isName`.
* `Passes` — a text that a tag can hold, in the sense that the end of the tag is not in it.
* `attributes?_attrChars` — reading attributes undoes writing them.
* `startEvent_start`, `startEvent_empty` — the same for whole tags.

A tag is found by looking for its end, and only then taken apart.  For the first, what stands inside
must not have an angle bracket outside of quotes; for the second, names must not have the marks at
which they would end.  `Writable` has both and no more, so that it also covers names that XML would
not allow but that are read and written without harm.
-/

set_option autoImplicit false

namespace Frontispiece
namespace Markup

/-! ## Names

The names of XML, by the ranges that its grammar gives for them.  They have none of the characters
that end or quote something, which is all that is used of them. -/

/-- The ranges of the characters that a name may start with. -/
def nameStartRanges : List (Nat × Nat) :=
  [(0x3A, 0x3A), (0x41, 0x5A), (0x5F, 0x5F), (0x61, 0x7A), (0xC0, 0xD6), (0xD8, 0xF6),
    (0xF8, 0x2FF), (0x370, 0x37D), (0x37F, 0x1FFF), (0x200C, 0x200D), (0x2070, 0x218F),
    (0x2C00, 0x2FEF), (0x3001, 0xD7FF), (0xF900, 0xFDCF), (0xFDF0, 0xFFFD), (0x10000, 0xEFFFF)]

/-- The ranges of the characters that a name may have besides. -/
def nameRanges : List (Nat × Nat) :=
  [(0x2D, 0x2E), (0x30, 0x39), (0xB7, 0xB7), (0x300, 0x36F), (0x203F, 0x2040)]

/-- Whether a character lies in one of some ranges. -/
def inRanges (ranges : List (Nat × Nat)) (c : Char) : Bool :=
  ranges.any fun (first, last) => decide (first ≤ c.toNat) && decide (c.toNat ≤ last)

/-- Whether a character may stand in a name. -/
def isNameChar (c : Char) : Bool :=
  inRanges nameStartRanges c || inRanges nameRanges c

/-- Whether a text is a name. -/
def isName (name : String) : Bool :=
  match name.toList with
  | [] => false
  | c :: rest => inRanges nameStartRanges c && rest.all isNameChar

/-- A name has characters of names only. -/
theorem isNameChar_of_isName {name : String} (h : isName name = true) {c : Char}
    (hc : c ∈ name.toList) : isNameChar c = true := by
  rw [isName] at h
  split at h
  · cases h
  · next d rest heq =>
    rw [Bool.and_eq_true] at h
    rw [heq] at hc
    rcases List.mem_cons.1 hc with rfl | hc
    · rw [isNameChar, h.1, Bool.true_or]
    · exact List.all_eq_true.1 h.2 c hc

/-- A name has a first character, which is one that names may start with. -/
theorem exists_cons_of_isName {name : String} (h : isName name = true) :
    ∃ c rest, name.toList = c :: rest ∧ inRanges nameStartRanges c = true := by
  rw [isName] at h
  split at h
  · cases h
  · next c rest heq =>
    rw [Bool.and_eq_true] at h
    exact ⟨c, rest, heq, h.1⟩

/-- A character of a name is none that a name does not have. -/
theorem ne_of_isNameChar {c d : Char} (hc : isNameChar c = true) (hd : isNameChar d = false) :
    c ≠ d := by
  rintro rfl
  rw [hc] at hd
  cases hd

/-! ## Tags that are read and tags that are written

There is a gap between the two: the reader takes tags that are not read back when they are written,
such as one with a slash at its end.  `Writable` are those that are. -/

/-- Whether a character neither ends a tag nor quotes what is behind it. -/
def isBare (c : Char) : Bool :=
  !(c == '"' || c == '\'' || c == '>')

/-- The name of an attribute as the reader takes it: up to an equals sign or a space, but with at
least one character. -/
def IsAttrName (name : String) : Prop :=
  ∃ c rest, name.toList = c :: rest ∧ isSpace c = false ∧
    ∀ d ∈ rest, d ≠ '=' ∧ isSpace d = false

/-- A tag with attributes as the reader takes them.  The tag ends at a space and does not start like
other markup; it may be empty. -/
structure Readable (tag : String) (attrs : Fields String) : Prop where
  spaceless : ∀ c ∈ tag.toList, isSpace c = false
  start : ∀ c rest, tag.toList = c :: rest → c ≠ '!' ∧ c ≠ '/' ∧ c ≠ '?'
  names : ∀ entry ∈ attrs, IsAttrName entry.1
  nodup : attrs.keys.Nodup

/-- Whether a tag can be written: it has characters, all of them bare, and does not look as if it
closed itself. -/
def isPlainTag (tag : String) : Bool :=
  tag.toList.all isBare && !tag.isEmpty && tag.toList.getLast? != some '/'

/-- A tag with attributes whose names are good between angle brackets. -/
structure Plain (tag : String) (attrs : Fields String) : Prop where
  tag : isPlainTag tag = true
  names : ∀ entry ∈ attrs, entry.1.toList.all isBare = true

/-- A tag with attributes that reads the same when it is written. -/
structure Writable (tag : String) (attrs : Fields String) : Prop where
  readable : Readable tag attrs
  plain : Plain tag attrs

section

variable {tag : String} {attrs : Fields String}

theorem Writable.bare (h : Writable tag attrs) : ∀ c ∈ tag.toList, isBare c = true := by
  have htag := h.plain.tag
  rw [isPlainTag, Bool.and_eq_true, Bool.and_eq_true] at htag
  exact List.all_eq_true.1 htag.1.1

theorem Writable.getLast?_ne (h : Writable tag attrs) : tag.toList.getLast? ≠ some '/' := by
  have htag := h.plain.tag
  rw [isPlainTag, Bool.and_eq_true, Bool.and_eq_true] at htag
  simpa using htag.2

/-- A tag that can be written has a first character, which starts no other markup. -/
theorem Writable.exists_cons (h : Writable tag attrs) :
    ∃ c rest, tag.toList = c :: rest ∧ c ≠ '!' ∧ c ≠ '/' ∧ c ≠ '?' := by
  have htag := h.plain.tag
  rw [isPlainTag, Bool.and_eq_true, Bool.and_eq_true] at htag
  cases heq : tag.toList with
  | nil =>
    rw [String.toList_eq_nil_iff] at heq
    simp [heq] at htag
  | cons c rest => exact ⟨c, rest, rfl, h.readable.start c rest heq⟩

theorem isBare_of_isNameChar {c : Char} (h : isNameChar c = true) : isBare c = true := by
  have hquot := ne_of_isNameChar h (d := '"') rfl
  have hapos := ne_of_isNameChar h (d := '\'') rfl
  have hgt := ne_of_isNameChar h (d := '>') rfl
  simp [isBare, hquot, hapos, hgt]

theorem isSpace_of_isNameChar {c : Char} (h : isNameChar c = true) : isSpace c = false := by
  have hspace := ne_of_isNameChar h (d := ' ') rfl
  have hreturn := ne_of_isNameChar h (d := '\r') rfl
  have hfeed := ne_of_isNameChar h (d := '\n') rfl
  have htab := ne_of_isNameChar h (d := '\t') rfl
  simp [isSpace, hspace, hreturn, hfeed, htab]

/-- A name can be an attribute. -/
theorem isAttrName_of_isName {name : String} (h : isName name = true) : IsAttrName name := by
  obtain ⟨c, rest, heq, -⟩ := exists_cons_of_isName h
  have hchar : ∀ d ∈ c :: rest, isNameChar d = true := fun d hd =>
    isNameChar_of_isName h (heq ▸ hd)
  refine ⟨c, rest, heq, isSpace_of_isNameChar (hchar c List.mem_cons_self), fun d hd => ?_⟩
  have hd := hchar d (List.mem_cons_of_mem c hd)
  exact ⟨ne_of_isNameChar hd rfl, isSpace_of_isNameChar hd⟩

/-- A name is a tag that the reader cuts where it ends. -/
theorem isPlainTag_of_isName (h : isName tag = true) : isPlainTag tag = true := by
  have hbare : tag.toList.all isBare = true :=
    List.all_eq_true.2 fun c hc => isBare_of_isNameChar (isNameChar_of_isName h hc)
  obtain ⟨c, rest, heq, -⟩ := exists_cons_of_isName h
  have hne : tag ≠ "" := by
    rintro rfl
    cases heq
  have hlast : tag.toList.getLast? ≠ some '/' := fun hlast =>
    ne_of_isNameChar (isNameChar_of_isName h (List.mem_of_getLast? hlast)) (d := '/') rfl rfl
  simp [isPlainTag, hbare, hne, hlast]

/-- **Names can be written.** -/
theorem Writable.of_isName (htag : isName tag = true)
    (hnames : ∀ entry ∈ attrs, isName entry.1 = true) (hnodup : attrs.keys.Nodup) :
    Writable tag attrs where
  readable :=
    { spaceless := fun _ hc => isSpace_of_isNameChar (isNameChar_of_isName htag hc)
      start := fun c rest heq => by
        obtain ⟨first, others, heq', hstart⟩ := exists_cons_of_isName htag
        rw [heq, List.cons.injEq] at heq'
        have hne : ∀ d : Char, inRanges nameStartRanges d = false → c ≠ d := by
          rintro d hd rfl
          rw [heq'.1, hstart] at hd
          cases hd
        exact ⟨hne _ rfl, hne _ rfl, hne _ rfl⟩
      names := fun entry he => isAttrName_of_isName (hnames entry he)
      nodup := hnodup }
  plain :=
    { tag := isPlainTag_of_isName htag
      names := fun entry he => List.all_eq_true.2 fun _ hc =>
        isBare_of_isNameChar (isNameChar_of_isName (hnames entry he) hc) }

end

/-! ## The end of a tag

A tag ends at the first angle bracket outside of quotes.  So a part of a tag has to be known by what
it does to this search: it must not end it, and it must leave it outside of quotes. -/

/-- A text in which a tag does not end, and after which it may. -/
def Passes (s : List Char) : Prop :=
  ∀ rest, tagEnd? none (s ++ rest)
    = (tagEnd? none rest).map fun (inside, after) => (s ++ inside, after)

theorem Passes.nil : Passes [] := fun rest => by
  cases h : tagEnd? none rest <;> simp [h]

theorem Passes.append {s t : List Char} (hs : Passes s) (ht : Passes t) : Passes (s ++ t) := by
  intro rest
  rw [List.append_assoc, hs, ht]
  cases tagEnd? none rest <;> simp

/-- A character outside quotes. -/
theorem Passes.bare {c : Char} (h : isBare c = true) : Passes [c] := by
  intro rest
  simp only [isBare, Bool.not_eq_true', Bool.or_eq_false_iff, beq_eq_false_iff_ne] at h
  obtain ⟨⟨hquot, hapos⟩, hgt⟩ := h
  simp [tagEnd?, hquot, hapos, hgt]

theorem Passes.of_bare : ∀ {s : List Char}, (∀ c ∈ s, isBare c = true) → Passes s
  | [], _ => .nil
  | c :: rest, h => by
    have ih : Passes rest := .of_bare fun d hd => h d (List.mem_cons_of_mem _ hd)
    exact (Passes.bare (h c List.mem_cons_self)).append ih

/-- A quoted value. -/
theorem tagEnd?_quoted : ∀ {s : List Char}, (∀ c ∈ s, isInert c = true) → ∀ rest,
    tagEnd? (some '"') (s ++ '"' :: rest)
      = (tagEnd? none rest).map fun (inside, after) => (s ++ '"' :: inside, after)
  | [], _, rest => by simp [tagEnd?]
  | c :: s, h, rest => by
    have hquot : (c == '"') = false := by
      have hc := h c List.mem_cons_self
      simp only [isInert, Bool.not_eq_true', Bool.or_eq_false_iff] at hc
      exact hc.1.1.1
    have ih := tagEnd?_quoted (s := s) (fun d hd => h d (List.mem_cons_of_mem _ hd)) rest
    rw [List.cons_append, tagEnd?]
    simp only [Option.isNone_some, Bool.false_and, Bool.false_eq_true, if_false, hquot, ih,
      Option.map_map]
    rfl

/-- A scan for the end of a tag passes a quoted value, whatever marks stand in it. -/
theorem Passes.quoted {s : List Char} (h : ∀ c ∈ s, isInert c = true) :
    Passes ('"' :: s ++ ['"']) := by
  intro rest
  have hopen : tagEnd? none ('"' :: (s ++ '"' :: rest))
      = (tagEnd? (some '"') (s ++ '"' :: rest)).map fun (inside, after) =>
        ('"' :: inside, after) := rfl
  rw [List.append_assoc, List.singleton_append, List.cons_append, hopen, tagEnd?_quoted h,
    Option.map_map]
  cases tagEnd? none rest <;> simp

/-! ## Attributes

An attribute is written with a space before it and its value in quotes.  The reader takes one after
the other, and keeps those that it has to notice a second one of the same name. -/

/-- One attribute as written. -/
theorem attrChars_cons (name value : String) (rest : Fields String) :
    attrChars ((name, value) :: rest)
      = ' ' :: (name.toList
          ++ '=' :: '"' :: (escapeAttr value.toList ++ '"' :: attrChars rest)) := by
  simp [attrChars]

/-- **Attributes pass**, whatever their values are. -/
theorem Passes.attrs : ∀ {attrs : Fields String},
    (∀ entry ∈ attrs, entry.1.toList.all isBare = true) → Passes (attrChars attrs)
  | [], _ => .nil
  | (name, value) :: rest, h => by
    have hname : Passes name.toList := .of_bare (List.all_eq_true.1 (h _ List.mem_cons_self))
    have hvalue := Passes.quoted fun c hc => escapeAttr_inert (s := value.toList) hc
    have ih : Passes (attrChars rest) :=
      .attrs fun entry he => h entry (List.mem_cons_of_mem _ he)
    have heq : attrChars ((name, value) :: rest) = [' '] ++ (name.toList ++ (['='] ++
        (('"' :: escapeAttr value.toList ++ ['"']) ++ attrChars rest))) := by
      simp [attrChars_cons]
    rw [heq]
    exact (Passes.bare rfl).append (hname.append ((Passes.bare rfl).append (hvalue.append ih)))

/-- **Reading an attribute undoes writing it.** -/
theorem attribute?_attr {name : String} (hname : IsAttrName name) (value : String)
    (rest : List Char) :
    attribute? (name.toList ++ '=' :: '"' :: (escapeAttr value.toList ++ '"' :: rest))
      = some (name.toList, escapeAttr value.toList, rest) := by
  obtain ⟨c, chars, heq, -, hrest⟩ := hname
  have hchars : ∀ d ∈ chars, (!(d == '=' || isSpace d)) = true := fun d hd => by
    obtain ⟨hequals, hspace⟩ := hrest d hd
    simp [hequals, hspace]
  have hvalue : Text.cutWhere? (· == '"') (escapeAttr value.toList ++ '"' :: rest)
      = some (escapeAttr value.toList, rest) := by
    refine Text.cutWhere?_append '"' rfl rest fun d hd => ?_
    have hinert := escapeAttr_inert hd
    simp only [isInert, Bool.not_eq_true', Bool.or_eq_false_iff] at hinert
    exact hinert.1.1.1
  have htake : (chars ++ '=' :: '"' :: (escapeAttr value.toList ++ '"' :: rest)).takeWhile
      (fun c => !(c == '=' || isSpace c)) = chars := by
    rw [List.takeWhile_append_of_pos hchars, List.takeWhile_cons_of_neg (by decide),
      List.append_nil]
  have hdrop : (chars ++ '=' :: '"' :: (escapeAttr value.toList ++ '"' :: rest)).dropWhile
      (fun c => !(c == '=' || isSpace c))
      = '=' :: '"' :: (escapeAttr value.toList ++ '"' :: rest) := by
    rw [List.dropWhile_append_of_pos hchars, List.dropWhile_cons_of_neg (by decide)]
  have hequals : ('=' :: '"' :: (escapeAttr value.toList ++ '"' :: rest)).dropWhile isSpace
      = '=' :: '"' :: (escapeAttr value.toList ++ '"' :: rest) := rfl
  have hquote : ('"' :: (escapeAttr value.toList ++ '"' :: rest)).dropWhile isSpace
      = '"' :: (escapeAttr value.toList ++ '"' :: rest) := rfl
  rw [heq, List.cons_append, attribute?]
  simp only [htake, hdrop, hequals, hquote, hvalue]
  rfl

/-- Attributes are read back one after the other as they were written, if their names are
different. -/
theorem attributesFrom?_attrChars : ∀ (attrs : Fields String) (fuel : Nat) (read : Fields String),
    attrs.length < fuel → (∀ entry ∈ attrs, IsAttrName entry.1) →
    (read ++ attrs).keys.Nodup → attributesFrom? fuel read (attrChars attrs) = some (read ++ attrs)
  | [], fuel + 1, read, _, _, _ => by
    rw [attributesFrom?, List.append_nil]
    rfl
  | (name, value) :: rest, fuel + 1, read, hfuel, hnames, hnodup => by
    have hname : IsAttrName name := hnames _ List.mem_cons_self
    obtain ⟨c, chars, heq, hc, -⟩ := hname
    have hnew : ¬read.contains name = true := by
      rw [Fields.contains_iff]
      intro hmem
      rw [Fields.keys, List.map_append] at hnodup
      exact (List.nodup_append.1 hnodup).2.2 name hmem name List.mem_cons_self rfl
    have hspaces : (attrChars ((name, value) :: rest)).dropWhile isSpace
        = name.toList ++ '=' :: '"' :: (escapeAttr value.toList ++ '"' :: attrChars rest) := by
      rw [attrChars_cons, List.dropWhile_cons_of_pos (by rfl), heq, List.cons_append,
        List.dropWhile_cons_of_neg (by simp [hc])]
    have ih := attributesFrom?_attrChars rest fuel (read ++ [(name, value)]) (by simpa using hfuel)
      (fun entry he => hnames entry (List.mem_cons_of_mem _ he)) (by simpa using hnodup)
    rw [attributesFrom?, hspaces]
    split
    · next hnil => simp [heq] at hnil
    · rw [attribute?_attr (hnames _ List.mem_cons_self)]
      simp only [Option.bind_eq_bind, Option.bind_some, String.ofList_toList, resolve_attr,
        if_neg hnew, ih, List.append_assoc, List.singleton_append]

theorem length_le_attrChars : ∀ attrs : Fields String, attrs.length ≤ (attrChars attrs).length
  | [] => Nat.le_refl _
  | (name, value) :: rest => by
    have ih := length_le_attrChars rest
    rw [attrChars_cons]
    simp only [List.length_cons, List.length_append]
    omega

/-- **Reading attributes undoes writing them**, as long as no name comes twice. -/
theorem attributes?_attrChars {attrs : Fields String}
    (hnames : ∀ entry ∈ attrs, IsAttrName entry.1) (hnodup : attrs.keys.Nodup) :
    attributes? (attrChars attrs) = some attrs :=
  attributesFrom?_attrChars attrs _ [] (Nat.lt_succ_of_le (length_le_attrChars attrs)) hnames hnodup

/-! ## Whole tags

A slash at the end of a tag closes the element at once.  It is looked for at the end of all that
stands between the brackets, where a value cannot be mistaken for it, since values end with a quote.
-/

/-- Attributes do not end with the character that closes a tag at once. -/
theorem getLast?_attrChars : ∀ (attrs : Fields String) {s : List Char}, s.getLast? ≠ some '/' →
    (s ++ attrChars attrs).getLast? ≠ some '/'
  | [], s, h => by simpa [attrChars] using h
  | (name, value) :: rest, s, _ => by
    have heq : s ++ attrChars ((name, value) :: rest)
        = (s ++ ' ' :: (name.toList ++ '=' :: '"' :: escapeAttr value.toList) ++ ['"'])
          ++ attrChars rest := by
      simp [attrChars_cons]
    have hlast : (s ++ ' ' :: (name.toList ++ '=' :: '"' :: escapeAttr value.toList)
        ++ ['"']).getLast? ≠ some '/' := by
      rw [List.getLast?_concat]
      decide
    rw [heq]
    exact getLast?_attrChars rest hlast

section

variable {tag : String} {attrs : Fields String} (h : Writable tag attrs)

include h

/-- The name at the start of a tag ends where its attributes start. -/
theorem takeWhile_tag : (tag.toList ++ attrChars attrs).takeWhile (!isSpace ·) = tag.toList
    ∧ (tag.toList ++ attrChars attrs).dropWhile (!isSpace ·) = attrChars attrs := by
  have hplain : ∀ c ∈ tag.toList, (!isSpace c) = true := fun c hc => by
    simp [h.readable.spaceless c hc]
  rw [List.takeWhile_append_of_pos hplain, List.dropWhile_append_of_pos hplain]
  cases attrs with
  | nil => simp [attrChars]
  | cons entry rest =>
    obtain ⟨name, value⟩ := entry
    rw [attrChars_cons, List.takeWhile_cons_of_neg (by decide),
      List.dropWhile_cons_of_neg (by decide), List.append_nil]
    exact ⟨rfl, rfl⟩

/-- **Reading a start tag undoes writing it.** -/
theorem startEvent_start : startEvent (tag.toList ++ attrChars attrs) = .start tag (some attrs) := by
  have hlast := getLast?_attrChars attrs h.getLast?_ne
  obtain ⟨htake, hdrop⟩ := takeWhile_tag h
  rw [startEvent]
  split
  · next before hreverse =>
    rw [List.getLast?_eq_head?_reverse, hreverse] at hlast
    exact absurd rfl hlast
  · rw [htake, hdrop, attributes?_attrChars h.readable.names h.readable.nodup, String.ofList_toList]

/-- **Reading a tag that closes itself undoes writing it.** -/
theorem startEvent_empty :
    startEvent (tag.toList ++ attrChars attrs ++ ['/']) = .empty tag (some attrs) := by
  obtain ⟨htake, hdrop⟩ := takeWhile_tag h
  rw [startEvent, List.reverse_append, List.reverse_singleton, List.singleton_append]
  simp only [List.reverse_reverse, htake, hdrop,
    attributes?_attrChars h.readable.names h.readable.nodup, String.ofList_toList]

end

/-! ## Their events

What is found between two angle brackets is one event.  For written tags it is the event with the
tag and the attributes that were written. -/

/-- The end of a tag whose inside passes. -/
theorem tagEnd?_of_passes {inside : List Char} (h : Passes inside) (rest : List Char) :
    tagEnd? none (inside ++ '>' :: rest) = some (inside, rest) := by
  rw [h]
  simp [tagEnd?]

/-- Nothing is dropped from a text that has nothing to be dropped. -/
theorem dropTrailing_eq_self {p : Char → Bool} : ∀ {s : List Char}, (∀ c ∈ s, p c = false) →
    Text.dropTrailing p s = s
  | [], _ => rfl
  | c :: rest, h => by
    have ih := dropTrailing_eq_self fun d hd => h d (List.mem_cons_of_mem _ hd)
    rw [Text.dropTrailing, List.foldr_cons, ← Text.dropTrailing, ih, h c List.mem_cons_self,
      Bool.and_false]
    rfl

section

variable {tag : String} {attrs : Fields String} (h : Writable tag attrs)

include h

/-- A tag after `<` starts an element. -/
theorem markupEvent?_tag {s inside rest : List Char}
    (hend : tagEnd? none (tag.toList ++ s) = some (inside, rest)) :
    markupEvent? (tag.toList ++ s) = some (startEvent inside, rest) := by
  obtain ⟨c, chars, heq, hbang, hslash, hquestion⟩ := h.exists_cons
  rw [heq, List.cons_append] at hend ⊢
  rw [markupEvent?, hend]
  · rfl
  all_goals
    intros
    simp_all

theorem markupEvent?_start (rest : List Char) :
    markupEvent? (tag.toList ++ (attrChars attrs ++ '>' :: rest))
      = some (.start tag (some attrs), rest) := by
  have hend := tagEnd?_of_passes ((Passes.of_bare h.bare).append (.attrs h.plain.names)) rest
  rw [List.append_assoc] at hend
  rw [markupEvent?_tag h hend, startEvent_start h]

theorem markupEvent?_empty (rest : List Char) :
    markupEvent? (tag.toList ++ (attrChars attrs ++ '/' :: '>' :: rest))
      = some (.empty tag (some attrs), rest) := by
  have hpasses : Passes (tag.toList ++ attrChars attrs ++ ['/']) :=
    ((Passes.of_bare h.bare).append (.attrs h.plain.names)).append (Passes.bare rfl)
  have hend := tagEnd?_of_passes hpasses rest
  rw [List.append_assoc, List.append_assoc, List.singleton_append] at hend
  rw [markupEvent?_tag h hend, startEvent_empty h]

theorem markupEvent?_finish (rest : List Char) :
    markupEvent? ('/' :: (tag.toList ++ '>' :: rest)) = some (.finish tag, rest) := by
  have hdrop : Text.dropTrailing isSpace tag.toList = tag.toList :=
    dropTrailing_eq_self h.readable.spaceless
  rw [markupEvent?, tagEnd?_of_passes (.of_bare h.bare), Option.map_some]
  simp only [hdrop, String.ofList_toList]

end

end Markup
end Frontispiece
