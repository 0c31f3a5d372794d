import Frontispiece.Json.Basic

/-!
# Fields

`Fields` is a list of named values that is read by `get?` and changed by `insert`.  These are the
laws that tie the two together, and what the operations do to the keys.

The list is kept in the order in which keys were first set, which is what a map with insertion order
does.  Most lemmas need that no key comes twice; setting and taking away keep this so.
-/

set_option autoImplicit false

namespace Frontispiece
namespace Fields

variable {α : Type}

@[simp] theorem get?_nil (key : String) : get? ([] : Fields α) key = none := rfl

theorem get?_cons (field : String × α) (rest : Fields α) (key : String) :
    get? (field :: rest : List (String × α)) key
      = if field.1 = key then some field.2 else get? rest key := by
  by_cases h : field.1 = key
  · simp [get?, h]
  · simp [get?, h]

/-- A value that is found is a field. -/
theorem mem_of_get? {fields : Fields α} {key : String} {value : α}
    (h : fields.get? key = some value) : (key, value) ∈ fields := by
  obtain ⟨field, hfield, rfl⟩ := Option.map_eq_some_iff.1 h
  have hkey : field.1 = key := by simpa using List.find?_some hfield
  exact hkey ▸ List.mem_of_find?_eq_some hfield

/-- A field is found when no key comes twice. -/
theorem get?_of_mem {key : String} {value : α} : ∀ {fields : Fields α}, fields.keys.Nodup →
    (key, value) ∈ fields → fields.get? key = some value
  | field :: rest, hnodup, hmem => by
    obtain ⟨hnew, hrest⟩ := List.nodup_cons.1 hnodup
    rw [get?_cons]
    rcases List.mem_cons.1 hmem with rfl | hmem
    · rw [if_pos rfl]
    · have hne : field.1 ≠ key := fun heq => hnew (heq ▸ List.mem_map_of_mem hmem)
      rw [if_neg hne, get?_of_mem hrest hmem]

theorem get?_eq_some_iff {fields : Fields α} (h : fields.keys.Nodup) {key : String} {value : α} :
    fields.get? key = some value ↔ (key, value) ∈ fields :=
  ⟨mem_of_get?, get?_of_mem h⟩

theorem get?_isSome_iff {fields : Fields α} {key : String} :
    (fields.get? key).isSome = true ↔ key ∈ fields.keys := by
  simp [get?, keys]

theorem contains_iff {fields : Fields α} {key : String} :
    fields.contains key = true ↔ key ∈ fields.keys := by
  simp [contains, keys]

theorem get?_eq_none_iff {fields : Fields α} {key : String} :
    fields.get? key = none ↔ key ∉ fields.keys := by
  rw [← get?_isSome_iff]
  cases fields.get? key <;> simp

/-- A key has the value that it was given. -/
@[simp] theorem get?_insert_self (key : String) (value : α) :
    ∀ fields : Fields α, (fields.insert key value).get? key = some value
  | [] => by simp [insert, get?_cons]
  | field :: rest => by
    rw [insert]
    split
    · simp [get?_cons]
    · next h =>
      have hne : ¬field.1 = key := by simpa using h
      rw [get?_cons, if_neg hne, get?_insert_self key value rest]

/-- Other keys keep their values. -/
theorem get?_insert_of_ne {key other : String} (hne : other ≠ key) (value : α) :
    ∀ fields : Fields α, (fields.insert key value).get? other = fields.get? other
  | [] => by simp [insert, get?_cons, hne.symm]
  | field :: rest => by
    rw [insert]
    split
    · next h =>
      have heq : field.1 = key := by simpa using h
      rw [get?_cons, get?_cons, if_neg hne.symm, if_neg (heq ▸ hne.symm)]
    · rw [get?_cons, get?_cons, get?_insert_of_ne hne value rest]

/-- Setting a key twice to one value is setting it once. -/
theorem insert_insert_self (key : String) (value : α) : ∀ fields : Fields α,
    (fields.insert key value).insert key value = fields.insert key value
  | [] => by simp [insert]
  | field :: rest => by
    by_cases h : field.1 = key
    · simp [insert, h]
    · simp [insert, h, insert_insert_self key value rest]

/-- A field of a map with one more is the new field, or was there. -/
theorem mem_insert {key : String} {value : α} {field : String × α} :
    ∀ {fields : Fields α}, field ∈ fields.insert key value → field = (key, value) ∨ field ∈ fields
  | [], h => by simpa [insert] using h
  | first :: rest, h => by
    rw [insert] at h
    split at h
    · rcases List.mem_cons.1 h with rfl | h
      · exact .inl rfl
      · exact .inr (List.mem_cons_of_mem _ h)
    · rcases List.mem_cons.1 h with rfl | h
      · exact .inr List.mem_cons_self
      · exact (mem_insert h).imp_right (List.mem_cons_of_mem _)

@[simp] theorem keys_cons (field : String × α) (rest : Fields α) :
    keys (field :: rest : List (String × α)) = field.1 :: keys rest := rfl

/-- A new key goes to the end, an old one keeps its place. -/
theorem keys_insert (key : String) (value : α) : ∀ fields : Fields α,
    (fields.insert key value).keys
      = if key ∈ fields.keys then fields.keys else fields.keys ++ [key]
  | [] => by simp [insert, keys]
  | field :: rest => by
    have ih := keys_insert key value rest
    rw [insert]
    split
    · next h =>
      have heq : field.1 = key := by simpa using h
      rw [keys_cons, keys_cons, heq, if_pos List.mem_cons_self]
    · next h =>
      have hne : field.1 ≠ key := by simpa using h
      rw [keys_cons, keys_cons, ih]
      by_cases hmem : key ∈ keys rest
      · rw [if_pos hmem, if_pos (List.mem_cons_of_mem _ hmem)]
      · rw [if_neg hmem, if_neg (List.not_mem_cons_of_ne_of_not_mem hne.symm hmem),
          List.cons_append]

/-- Setting a key leaves no key twice. -/
theorem insert_nodup (key : String) (value : α) {fields : Fields α} (h : fields.keys.Nodup) :
    (fields.insert key value).keys.Nodup := by
  rw [keys_insert]
  split
  · exact h
  · next hnew =>
    exact List.nodup_append.2 ⟨h, List.pairwise_singleton _ key, fun a ha b hb heq =>
      hnew (List.mem_singleton.1 hb ▸ heq ▸ ha)⟩

/-- A new key comes last. -/
theorem insert_of_notMem {key : String} (value : α) : ∀ {fields : Fields α}, key ∉ fields.keys →
    fields.insert key value = fields ++ [(key, value)]
  | [], _ => rfl
  | field :: rest, h => by
    rw [keys_cons, List.mem_cons, not_or] at h
    have hne : ¬(field.1 == key) = true := by simpa using Ne.symm h.1
    rw [insert, if_neg hne, insert_of_notMem value h.2]
    rfl

/-- Fields with distinct keys that are set one after the other stay as they are. -/
theorem foldl_insert_of_nodup : ∀ (fields : List (String × α)) {read : Fields α},
    (keys (read ++ fields)).Nodup →
    fields.foldl (fun kept field => kept.insert field.1 field.2) read = read ++ fields
  | [], read, _ => (List.append_nil read).symm
  | field :: rest, read, h => by
    have hassoc : read ++ field :: rest = (read ++ [field]) ++ rest := by simp
    have hnew : field.1 ∉ read.keys := by
      rw [keys, List.map_append, List.nodup_append] at h
      exact fun hmem => h.2.2 field.1 hmem field.1 List.mem_cons_self rfl
    rw [hassoc] at h ⊢
    rw [List.foldl_cons, insert_of_notMem field.2 hnew]
    exact foldl_insert_of_nodup rest h

/-- Putting fields in one after the other leaves no key twice. -/
theorem foldl_insert_nodup : ∀ (fields : List (String × α)) {read : Fields α}, read.keys.Nodup →
    (keys (fields.foldl (fun kept field => kept.insert field.1 field.2) read)).Nodup
  | [], _, h => h
  | field :: rest, _, h => foldl_insert_nodup rest (insert_nodup field.1 field.2 h)

theorem ofList_nodup (fields : List (String × α)) : (ofList fields).keys.Nodup :=
  foldl_insert_nodup fields List.nodup_nil

/-- Fields that are put in one after the other are among those that are put in. -/
theorem mem_foldl_insert {field : String × α} : ∀ {fields : List (String × α)} {read : Fields α},
    field ∈ fields.foldl (fun kept field => kept.insert field.1 field.2) read →
      field ∈ read ∨ field ∈ fields
  | [], _, h => .inl h
  | first :: rest, read, h => by
    rw [List.foldl_cons] at h
    rcases mem_foldl_insert h with hread | hrest
    · rcases mem_insert hread with rfl | hread
      · exact .inr List.mem_cons_self
      · exact .inl hread
    · exact .inr (List.mem_cons_of_mem first hrest)

theorem mem_of_mem_ofList {field : String × α} {fields : List (String × α)}
    (h : field ∈ ofList fields) : field ∈ fields :=
  (mem_foldl_insert h).resolve_left List.not_mem_nil

/-- A key that is taken away has no value, and others keep theirs. -/
theorem get?_erase (fields : Fields α) (key other : String) :
    (fields.erase key).get? other = if key = other then none else fields.get? other := by
  induction fields with
  | nil => simp [erase]
  | cons field rest ih =>
    rw [erase] at ih
    rw [erase, List.filter_cons, get?_cons]
    by_cases hkey : field.1 = key
    · rw [if_neg (by simp [hkey]), ih, hkey]
      split
      · rfl
      · rfl
    · rw [if_pos (by simp [hkey]), get?_cons, ih]
      by_cases hother : field.1 = other
      · rw [if_pos hother, if_neg fun heq => hkey (hother.trans heq.symm), if_pos hother]
      · rw [if_neg hother, if_neg hother]

theorem keys_erase (fields : Fields α) (key : String) :
    (fields.erase key).keys = fields.keys.filter fun other => other != key := by
  rw [keys, erase, keys, List.filter_map]
  rfl

/-- Taking a key away leaves no key twice. -/
theorem erase_nodup (key : String) {fields : Fields α} (h : fields.keys.Nodup) :
    (fields.erase key).keys.Nodup := by
  rw [keys_erase]
  exact h.filter _

end Fields
end Frontispiece
