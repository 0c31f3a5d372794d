import Frontispiece.Markup.Event
import Frontispiece.Markup.Tree

/-!
# Escaped text

The writer has two ways to escape: attribute values lose five characters, text only the two that
would start markup.  The reader undoes both in the same way, because it resolves all references that
it knows, wherever they come from.

## What is here

* `unescape_attr`, `unescape_text` — reading undoes both, on every string.
* `escapeAttr_inert`, `escapeText_ne` — the characters that would end the value or the text
  are gone.

That both ways to escape are undone by one reader is not a coincidence of the characters that are
escaped: an ampersand is always escaped, so in written text a reference starts only where the writer
has put one.  Hence the proof is character by character, and nothing has to be known of the text as
a whole.
-/

set_option autoImplicit false

namespace Frontispiece
namespace Markup

/-! ## References

A reference is read to its semicolon and then looked up.  These lemmas take the reader over one
reference, and over one character that starts none. -/

/-- A character that starts no reference stands for itself. -/
theorem unescapeFrom?_cons {c : Char} (h : c ≠ '&') (rest : List Char) :
    unescapeFrom? none (c :: rest) = (unescapeFrom? none rest).map (c :: ·) := by
  have hc : (c == '&') = false := by simpa using h
  rw [unescapeFrom?, hc]
  rfl

/-- The characters of a name of a reference are collected. -/
theorem unescapeFrom?_name {c : Char} (hamp : c ≠ '&') (hend : c ≠ ';') (read rest : List Char) :
    unescapeFrom? (some read) (c :: rest) = unescapeFrom? (some (c :: read)) rest := by
  have hc : (c == '&') = false := by simpa using hamp
  have hd : (c == ';') = false := by simpa using hend
  rw [unescapeFrom?, hc, hd]
  rfl

/-- **A reference stands for its character.** -/
theorem unescapeFrom?_reference (name : List Char) {c : Char} (hname : reference? name = some c)
    (hplain : ∀ d ∈ name, d ≠ '&' ∧ d ≠ ';') (rest : List Char) :
    unescapeFrom? none ('&' :: name ++ ';' :: rest) = (unescapeFrom? none rest).map (c :: ·) := by
  have hread : ∀ (left read : List Char), (∀ d ∈ left, d ≠ '&' ∧ d ≠ ';') →
      unescapeFrom? (some read) (left ++ ';' :: rest)
        = unescapeFrom? (some (left.reverse ++ read)) (';' :: rest) := by
    intro left
    induction left with
    | nil => exact fun _ _ => rfl
    | cons d left ih =>
      intro read hleft
      obtain ⟨hamp, hend⟩ := hleft d List.mem_cons_self
      rw [List.cons_append, unescapeFrom?_name hamp hend,
        ih (d :: read) fun e he => hleft e (List.mem_cons_of_mem _ he), List.reverse_cons,
        List.append_assoc, List.singleton_append]
  have hstart : unescapeFrom? none ('&' :: (name ++ ';' :: rest))
      = unescapeFrom? (some []) (name ++ ';' :: rest) := rfl
  have hfinish : unescapeFrom? (some name.reverse) (';' :: rest) = (do
      let c ← reference? name.reverse.reverse
      let rest ← unescapeFrom? none rest
      some (c :: rest)) := rfl
  rw [List.cons_append, hstart, hread name [] hplain, List.append_nil, hfinish,
    List.reverse_reverse, hname]
  cases unescapeFrom? none rest <;> rfl

/-! ## Both ways to escape

Escaping works character by character, and so does its undoing, as long as no character that is
written as it is could start a reference.  That is why the ampersand is escaped in both ways. -/

/-- A character of a value is read back. -/
theorem unescape_attrChar (c : Char) (rest : List Char) :
    unescapeFrom? none (escapeAttrChar c ++ rest) = (unescapeFrom? none rest).map (c :: ·) := by
  rw [escapeAttrChar]
  split
  · next h => exact eq_of_beq h ▸ unescapeFrom?_reference "amp".toList rfl (by simp) rest
  split
  · next h => exact eq_of_beq h ▸ unescapeFrom?_reference "lt".toList rfl (by simp) rest
  split
  · next h => exact eq_of_beq h ▸ unescapeFrom?_reference "gt".toList rfl (by simp) rest
  split
  · next h => exact eq_of_beq h ▸ unescapeFrom?_reference "quot".toList rfl (by simp) rest
  split
  · next h => exact eq_of_beq h ▸ unescapeFrom?_reference "apos".toList rfl (by simp) rest
  · next h _ _ _ _ => exact unescapeFrom?_cons (by simpa using h) rest

/-- A character of text is read back. -/
theorem unescape_textChar (c : Char) (rest : List Char) :
    unescapeFrom? none (escapeTextChar c ++ rest) = (unescapeFrom? none rest).map (c :: ·) := by
  rw [escapeTextChar]
  split
  · next h => exact eq_of_beq h ▸ unescapeFrom?_reference "amp".toList rfl (by simp) rest
  split
  · next h => exact eq_of_beq h ▸ unescapeFrom?_reference "lt".toList rfl (by simp) rest
  · next h _ => exact unescapeFrom?_cons (by simpa using h) rest

/-- What is undone for each character is undone for a text. -/
theorem unescape_flatMap {escape : Char → List Char}
    (h : ∀ c rest, unescapeFrom? none (escape c ++ rest)
      = (unescapeFrom? none rest).map (c :: ·)) :
    ∀ s : List Char, unescape? (s.flatMap escape) = some s
  | [] => rfl
  | c :: rest => by
    rw [unescape?, List.flatMap_cons, h, ← unescape?, unescape_flatMap h rest]
    rfl

/-- **Reading a value undoes writing it.** -/
theorem unescape_attr (s : List Char) : unescape? (escapeAttr s) = some s :=
  unescape_flatMap unescape_attrChar s

/-- **Reading text undoes writing it.** -/
theorem unescape_text (s : List Char) : unescape? (escapeText s) = some s :=
  unescape_flatMap unescape_textChar s

@[simp] theorem resolve_attr (value : String) : resolve (escapeAttr value.toList) = value := by
  rw [resolve, unescape_attr, Option.getD_some, String.ofList_toList]

@[simp] theorem resolve_text (content : String) :
    resolve (escapeText content.toList) = content := by
  rw [resolve, unescape_text, Option.getD_some, String.ofList_toList]

/-! ## What escaping leaves out

The reader finds the end of a value at a quote and the end of a text at an angle bracket.  It does
so before references are resolved, so that it matters which characters are not written. -/

/-- A character that neither ends a quoted value or a tag nor starts one. -/
def isInert (c : Char) : Bool :=
  !(c == '"' || c == '\'' || c == '<' || c == '>')

theorem escapeAttrChar_inert (c : Char) : (escapeAttrChar c).all isInert = true := by
  rw [escapeAttrChar]
  split
  · rfl
  split
  · rfl
  split
  · rfl
  split
  · rfl
  split
  · rfl
  · simp_all [isInert]

/-- A written value has no quotes and no angle brackets. -/
theorem escapeAttr_inert {s : List Char} {c : Char} (h : c ∈ escapeAttr s) : isInert c = true := by
  obtain ⟨d, -, hd⟩ := List.mem_flatMap.1 h
  exact List.all_eq_true.1 (escapeAttrChar_inert d) c hd

theorem escapeTextChar_ne (c : Char) : (escapeTextChar c).all (· != '<') = true := by
  rw [escapeTextChar]
  split
  · rfl
  split
  · rfl
  · simp_all

/-- Written text starts no markup. -/
theorem escapeText_ne {s : List Char} {c : Char} (h : c ∈ escapeText s) : (c != '<') = true := by
  obtain ⟨d, -, hd⟩ := List.mem_flatMap.1 h
  exact List.all_eq_true.1 (escapeTextChar_ne d) c hd

@[simp] theorem escapeText_append (s t : List Char) :
    escapeText (s ++ t) = escapeText s ++ escapeText t := List.flatMap_append

/-- Text that is written has a character for each of its own. -/
theorem escapeText_eq_nil {s : List Char} : escapeText s = [] ↔ s = [] := by
  constructor
  · intro h
    have hs := unescape_text s
    rw [h] at hs
    exact (Option.some.inj hs).symm
  · rintro rfl
    rfl

end Markup
end Frontispiece
