import Frontispiece.Json.Compare
import Frontispiece.Proofs.Decimal.Order
import Frontispiece.Proofs.Json.Fields

/-!
# Laws of comparison

The operators compare values of six kinds on each side, arrays and objects by what is in them.  Their
laws hold for all values in which no object has a key twice, and none has that was read.

## What is here

* `Distinct` — no object of a value has a key twice; `merged_distinct` says that this is so of what
  was read.
* `equal_refl`, `equal_symm`, `equal_trans` — equality of values, by induction on the first of them.
* `strictEqual_trans`, `looseEqual_of_strictEqual`, `looseEqual_comm` — the two equalities of
  templates, by cases on the kinds of the two sides.
* `order?_swap` — the order of two values the other way round.
* `compareValues_laws` — the laws of the operators.

One would like the operators to be an equality and an order, and they are not: equality across kinds
is not transitive, and there are values in no order at all.  What does hold is collected in the last
theorem.  It needs that no object has a key twice.  With such objects even reflexivity would fail,
as a key is looked up and the first field with it is found.
-/

set_option autoImplicit false

namespace Frontispiece

/-! ## Numbers

Integers are equal as such and doubles as doubles, and a number of one form never equals one of the
other.  A double of data is never the one that does not equal itself, so this equality is reflexive.
-/

namespace Number

theorem toFloat_beq_self (n : Number) : (n.toFloat == n.toFloat) = true :=
  Float.beq_self_iff.2 n.toFloat_ne_nan

theorem equal_refl : ∀ n : Number, n.equal n = true
  | .int n => beq_self_eq_true n
  | .float _ hfinite => Float.beq_self_iff.2 (Decimal.ne_nan_of_isFinite hfinite)

theorem equal_symm : ∀ {m n : Number}, m.equal n = true → n.equal m = true
  | .int _, .int _, h => BEq.symm h
  | .float _ _, .float _ _, h => BEq.symm (α := Float) h
  | .int _, .float _ _, h => by cases h
  | .float _ _, .int _, h => by cases h

theorem equal_trans : ∀ {m n k : Number}, m.equal n = true → n.equal k = true → m.equal k = true
  | .int _, .int _, .int _, h, h' => BEq.trans h h'
  | .float _ _, .float _ _, .float _ _, h, h' => BEq.trans (α := Float) h h'
  | .int _, .float _ _, _, h, _ => by cases h
  | .float _ _, .int _, _, h, _ => by cases h
  | .int _, .int _, .float _ _, _, h => by cases h
  | .float _ _, .float _ _, .int _, _, h => by cases h

end Number

namespace Json

/-! ## Values with distinct keys

Fields are a list here, and a list could have a key twice.  A map cannot, and neither can what was
read: of two fields with one key the later value counts. -/

mutual

/-- No object of the value has a key twice. -/
def Distinct : Json → Prop
  | .array items => AllDistinct items
  | .object fields => (Fields.keys fields).Nodup ∧ FieldsDistinct fields
  | .null | .bool _ | .number _ | .string _ => True

/-- The same for items. -/
def AllDistinct : List Json → Prop
  | [] => True
  | item :: rest => item.Distinct ∧ AllDistinct rest

/-- The same for the values of fields. -/
def FieldsDistinct : List (String × Json) → Prop
  | [] => True
  | (_, value) :: rest => value.Distinct ∧ FieldsDistinct rest

end

theorem fieldsDistinct_iff : ∀ {fields : List (String × Json)},
    FieldsDistinct fields ↔ ∀ field ∈ fields, field.2.Distinct
  | [] => by simp [FieldsDistinct]
  | (key, value) :: rest => by
    rw [FieldsDistinct, fieldsDistinct_iff, List.forall_mem_cons]

mutual

/-- **No key comes twice in what was read.** -/
theorem merged_distinct : ∀ value : Json, value.merged.Distinct
  | .null | .bool _ | .number _ | .string _ => trivial
  | .array items => mergedItems_distinct items
  | .object fields => by
    rw [merged, Distinct, fieldsDistinct_iff]
    exact ⟨Fields.ofList_nodup _, fun field hfield =>
      mergedFields_distinct fields field (Fields.mem_of_mem_ofList hfield)⟩

theorem mergedItems_distinct : ∀ items : List Json, AllDistinct (mergedItems items)
  | [] => trivial
  | item :: rest => ⟨merged_distinct item, mergedItems_distinct rest⟩

theorem mergedFields_distinct : ∀ fields : List (String × Json),
    ∀ field ∈ mergedFields fields, field.2.Distinct
  | [], _, h => by cases h
  | (key, value) :: rest, field, h => by
    rcases List.mem_cons.1 h with rfl | hrest
    · exact merged_distinct value
    · exact mergedFields_distinct rest field hrest

end

/-! ## Equality of values

Arrays are equal item by item, and objects when they have as many fields and each is found in the
other with an equal value.  The order of fields plays no part, so for symmetry it must be counted
that no key is left over. -/

variable {a b c : Json}

/-- Fields are equal to others when each has an equal value under its key. -/
theorem equalFields_iff : ∀ {as bs : List (String × Json)}, equalFields as bs = true ↔
    ∀ field ∈ as, ∃ b, Fields.get? bs field.1 = some b ∧ equal field.2 b = true
  | [], bs => by simp [equalFields]
  | (key, a) :: rest, bs => by
    rw [equalFields, Bool.and_eq_true, equalFields_iff, List.forall_mem_cons]
    cases Fields.get? bs key with
    | none => simp
    | some b => simp

theorem equal_object {as bs : List (String × Json)} : equal (.object as) (.object bs) = true ↔
    as.length = bs.length ∧
      ∀ field ∈ as, ∃ b, Fields.get? bs field.1 = some b ∧ equal field.2 b = true := by
  rw [equal, Bool.and_eq_true, beq_iff_eq, equalFields_iff]

mutual

/-- **A value equals itself.** -/
theorem equal_refl : ∀ {a : Json}, a.Distinct → equal a a = true
  | .null, _ => rfl
  | .bool _, _ => beq_self_eq_true _
  | .number n, _ => n.equal_refl
  | .string _, _ => beq_self_eq_true _
  | .array _, h => equalItems_refl h
  | .object _, h => equal_object.2 ⟨rfl, fun field hfield =>
      ⟨field.2, Fields.get?_of_mem h.1 hfield, equal_refl_of_mem h.2 field hfield⟩⟩

theorem equalItems_refl : ∀ {items : List Json}, AllDistinct items → equalItems items items = true
  | [], _ => rfl
  | _ :: _, h => by rw [equalItems, equal_refl h.1, equalItems_refl h.2, Bool.and_self]

theorem equal_refl_of_mem : ∀ {fields : List (String × Json)}, FieldsDistinct fields →
    ∀ field ∈ fields, equal field.2 field.2 = true
  | [], _, _, hmem => by cases hmem
  | (_, _) :: _, h, field, hmem => by
    rcases List.mem_cons.1 hmem with rfl | hrest
    · exact equal_refl h.1
    · exact equal_refl_of_mem h.2 field hrest

end

/-- Of two lists of as many fields with distinct keys, each has the keys of the other if one has. -/
theorem keys_subset {as bs : List (String × Json)} (ha : (Fields.keys as).Nodup)
    (hlength : as.length = bs.length) (hsub : Fields.keys as ⊆ Fields.keys bs) :
    Fields.keys bs ⊆ Fields.keys as := by
  have hperm : (Fields.keys as).Perm (Fields.keys bs) :=
    (ha.subperm hsub).perm_of_length_le (by simp [Fields.keys, hlength])
  exact hperm.symm.subset

mutual

/-- **Equality of values goes both ways.**  Objects of as many fields are equal in both directions,
since neither has a key twice. -/
theorem equal_symm : ∀ {a b : Json}, a.Distinct → b.Distinct → equal a b = true → equal b a = true
  | .null, b, _, _, h => by cases b with
    | null => rfl
    | _ => cases h
  | .bool _, b, _, _, h => by cases b with
    | bool _ => exact BEq.symm (α := Bool) h
    | _ => cases h
  | .number m, b, _, _, h => by cases b with
    | number n => exact m.equal_symm h
    | _ => cases h
  | .string _, b, _, _, h => by cases b with
    | string _ => exact BEq.symm (α := String) h
    | _ => cases h
  | .array _, b, ha, hb, h => by cases b with
    | array _ => exact equalItems_symm ha hb h
    | _ => cases h
  | .object as, b, ha, hb, h => by cases b with
    | object bs =>
      obtain ⟨hlength, hall⟩ := equal_object.1 h
      refine equal_object.2 ⟨hlength.symm, fun field hfield => ?_⟩
      have hsub : Fields.keys as ⊆ Fields.keys bs := by
        intro key hkey
        obtain ⟨field, hmem, rfl⟩ := List.mem_map.1 hkey
        obtain ⟨b, hb, -⟩ := hall field hmem
        exact Fields.get?_isSome_iff.1 (by rw [hb, Option.isSome_some])
      obtain ⟨other, hother, hkey⟩ := List.mem_map.1
        (keys_subset ha.1 hlength hsub (List.mem_map_of_mem hfield))
      obtain ⟨value, hvalue, hequal⟩ := hall other hother
      rw [hkey, Fields.get?_of_mem hb.1 hfield] at hvalue
      cases hvalue
      exact ⟨other.2, Fields.get?_of_mem ha.1 (hkey ▸ hother), equal_symm_of_mem ha.2 other hother
        (fieldsDistinct_iff.1 hb.2 field hfield) hequal⟩
    | _ => cases h

theorem equalItems_symm : ∀ {as bs : List Json}, AllDistinct as → AllDistinct bs →
    equalItems as bs = true → equalItems bs as = true
  | [], [], _, _, _ => rfl
  | _ :: _, _ :: _, ha, hb, h => by
    rw [equalItems, Bool.and_eq_true] at h ⊢
    exact ⟨equal_symm ha.1 hb.1 h.1, equalItems_symm ha.2 hb.2 h.2⟩

theorem equal_symm_of_mem : ∀ {fields : List (String × Json)}, FieldsDistinct fields →
    ∀ field ∈ fields, ∀ {b : Json}, b.Distinct → equal field.2 b = true → equal b field.2 = true
  | [], _, _, hmem, _, _, _ => by cases hmem
  | (_, _) :: _, h, field, hmem, _, hb, hequal => by
    rcases List.mem_cons.1 hmem with rfl | hrest
    · exact equal_symm h.1 hb hequal
    · exact equal_symm_of_mem h.2 field hrest hb hequal

end

mutual

/-- **What equals one value equals what this one equals.** -/
theorem equal_trans : ∀ {a b c : Json}, equal a b = true → equal b c = true → equal a c = true
  | .null, b, _, h, h' => by cases b with
    | null => exact h'
    | _ => cases h
  | .bool _, b, _, h, h' => by cases b with
    | bool _ => exact (beq_iff_eq.1 h : _ = _) ▸ h'
    | _ => cases h
  | .number m, b, c, h, h' => by cases b with
    | number n => cases c with
      | number k => exact Number.equal_trans h h'
      | _ => cases h'
    | _ => cases h
  | .string _, b, _, h, h' => by cases b with
    | string _ => exact (beq_iff_eq.1 h : _ = _) ▸ h'
    | _ => cases h
  | .array _, b, c, h, h' => by cases b with
    | array _ => cases c with
      | array _ => exact equalItems_trans h h'
      | _ => cases h'
    | _ => cases h
  | .object as, b, c, h, h' => by cases b with
    | object bs => cases c with
      | object cs =>
        obtain ⟨hlength, hall⟩ := equal_object.1 h
        obtain ⟨hlength', hall'⟩ := equal_object.1 h'
        refine equal_object.2 ⟨hlength.trans hlength', fun field hfield => ?_⟩
        obtain ⟨b, hb, hequal⟩ := hall field hfield
        obtain ⟨c, hc, hequal'⟩ := hall' _ (Fields.mem_of_get? hb)
        exact ⟨c, hc, equal_trans_of_mem field hfield hequal hequal'⟩
      | _ => cases h'
    | _ => cases h

theorem equalItems_trans : ∀ {as bs cs : List Json}, equalItems as bs = true →
    equalItems bs cs = true → equalItems as cs = true
  | [], [], [], _, _ => rfl
  | _ :: _, _ :: _, _ :: _, h, h' => by
    rw [equalItems, Bool.and_eq_true] at h h' ⊢
    exact ⟨equal_trans h.1 h'.1, equalItems_trans h.2 h'.2⟩

theorem equal_trans_of_mem : ∀ {fields : List (String × Json)}, ∀ field ∈ fields, ∀ {b c : Json},
    equal field.2 b = true → equal b c = true → equal field.2 c = true
  | [], _, hmem, _, _, _, _ => by cases hmem
  | (_, _) :: _, field, hmem, _, _, h, h' => by
    rcases List.mem_cons.1 hmem with rfl | hrest
    · exact equal_trans h h'
    · exact equal_trans_of_mem field hrest h h'

end

/-! ## The equalities of templates

One equality compares values of one kind only, and the other turns a value into a number or a text
first when the kinds differ.  The laws go by the kinds of both sides, which are many cases but short
ones. -/

theorem strictEqual_refl (ha : a.Distinct) : strictEqual a a = true := by
  cases a with
  | number n => exact n.toFloat_beq_self
  | _ => exact equal_refl ha

/-- Strict equality goes both ways for values whose keys are distinct: the fields of one are found
in the other, and there are as many. -/
theorem strictEqual_symm (ha : a.Distinct) (hb : b.Distinct) (h : strictEqual a b = true) :
    strictEqual b a = true := by
  cases a with
  | number m => cases b with
    | number n => exact BEq.symm (α := Float) h
    | _ => cases h
  | _ => cases b with
    | number n => cases h
    | _ => exact equal_symm ha hb h

/-- Strict equality is transitive, for whatever values. -/
theorem strictEqual_trans (h : strictEqual a b = true) (h' : strictEqual b c = true) :
    strictEqual a c = true := by
  cases b with
  | number n => cases a with
    | number m => cases c with
      | number k => exact BEq.trans (α := Float) h h'
      | _ => cases h'
    | _ => cases h
  | _ => cases a with
    | number m => cases h
    | _ =>
      simp only [strictEqual] at h h' ⊢
      exact equal_trans h h'

theorem strictEqual_comm (ha : a.Distinct) (hb : b.Distinct) :
    strictEqual a b = strictEqual b a :=
  Bool.eq_iff_iff.2 ⟨strictEqual_symm ha hb, strictEqual_symm hb ha⟩

/-- A boolean is a number like itself. -/
theorem toFloat_bool_beq (x : Bool) : ((bool x).toFloat == (bool x).toFloat) = true := by
  cases x with
  | false => exact Float.beq_self_iff.2 (Decimal.ne_nan_of_isFinite (by rfl))
  | true => exact Float.beq_self_iff.2 (Decimal.ne_nan_of_isFinite (by rfl))

/-- **What is equal in kind and value is equal across kinds.** -/
theorem looseEqual_of_strictEqual (h : strictEqual a b = true) : looseEqual a b = true := by
  cases a with
  | null => cases b with
    | null => rfl
    | _ => cases h
  | bool x => cases b with
    | bool y =>
      have hxy : x = y := beq_iff_eq.1 h
      exact hxy ▸ toFloat_bool_beq x
    | _ => cases h
  | number m => cases b with
    | number n => exact h
    | _ => cases h
  | string s => cases b with
    | string t => exact h
    | _ => cases h
  | array items => cases b with
    | array others => exact h
    | _ => cases h
  | object fields => cases b with
    | object others => exact h
    | _ => cases h

/-- **Equality across kinds goes both ways**, by cases on the two kinds: what is compared is the same
two numbers, texts or values. -/
theorem looseEqual_comm (ha : a.Distinct) (hb : b.Distinct) : looseEqual a b = looseEqual b a := by
  cases a with
  | null => cases b <;> rfl
  | bool x => cases b with
    | null => rfl
    | _ => exact BEq.comm (α := Float)
  | number m => cases b with
    | null => rfl
    | number n => exact strictEqual_comm ha hb
    | _ => exact BEq.comm (α := Float)
  | string s => cases b with
    | null => rfl
    | bool y => exact BEq.comm (α := Float)
    | number n => exact BEq.comm (α := Float)
    | _ => exact BEq.comm (α := String)
  | array items => cases b with
    | null => rfl
    | bool y => exact BEq.comm (α := Float)
    | number n => exact BEq.comm (α := Float)
    | string t => exact BEq.comm (α := String)
    | _ => exact strictEqual_comm ha hb
  | object fields => cases b with
    | null => rfl
    | bool y => exact BEq.comm (α := Float)
    | number n => exact BEq.comm (α := Float)
    | string t => exact BEq.comm (α := String)
    | _ => exact strictEqual_comm ha hb

/-! ## Order

Two texts are in the order of their characters, and everything else in that of numbers, where what
is no number is in no order with anything.  So an order may be missing, and it is missing in both
directions. -/

/-- **Two values in order the other way round.** -/
theorem order?_swap (a b : Json) : order? b a = (order? a b).map Ordering.swap := by
  rw [order?, order?]
  cases primitive a with
  | string s => cases primitive b with
    | string t => exact congrArg some Std.OrientedCmp.eq_swap
    | _ => exact Decimal.floatOrder?_swap _ _
  | _ => cases primitive b with
    | string t => exact Decimal.floatOrder?_swap _ _
    | _ => exact Decimal.floatOrder?_swap _ _

/-- The texts of items, one after the other. -/
theorem primitiveTexts_eq : ∀ items : List Json, primitiveTexts items = items.map primitiveText
  | [] => rfl
  | item :: rest => by rw [primitiveTexts, primitiveTexts_eq rest, List.map_cons]

/-- The text that an array is compared by: those of its items with commas between them. -/
theorem primitiveText_array (items : List Json) :
    primitiveText (.array items) = ",".intercalate (items.map primitiveText) := by
  rw [primitiveText, primitiveTexts_eq]

/-! ## The operators

Which operator it is goes by its text.  The laws are put together from those of the relations, and
they say as well what becomes of arrays, which are compared by their texts. -/

/-- Whether a value is a number or a text. -/
def isPlain : Json → Bool
  | .number _ | .string _ => true
  | _ => false

/-- An array equals a number or a text like the text of its items, on either side. -/
theorem looseEqual_array (items : List Json) {other : Json} (h : other.isPlain = true) :
    looseEqual (.array items) other = looseEqual (.string (primitiveText (.array items))) other ∧
      looseEqual other (.array items)
        = looseEqual other (.string (primitiveText (.array items))) := by
  cases other with
  | number n => exact ⟨rfl, rfl⟩
  | string s => exact ⟨rfl, rfl⟩
  | _ => cases h

/-- In order, an array is the text of its items next to any value. -/
theorem order?_array (items : List Json) (other : Json) :
    order? (.array items) other = order? (.string (primitiveText (.array items))) other ∧
      order? other (.array items) = order? other (.string (primitiveText (.array items))) :=
  ⟨rfl, rfl⟩

/-- The operators that ask whether values are equal, or which comes first. -/
def relations : List String := ["==", "!=", "<", "<=", ">", ">="]

/-- **Laws of the operators**, for values in which no object has a key twice.
* `===` is reflexive, symmetric and transitive, and what it holds of `==` holds of.
* `==` is reflexive and symmetric.
* `!=` and `!==` are the negations of `==` and `===`.
* `<` is `>` and `<=` is `>=` the other way round; `<` and `>` exclude each other; `<=` is `<` or
  `<=` both ways.
* Two values of which one of the four holds are in order: `<=` holds one way or the other.
* Next to a number or a text, on either side, an array is the text of its items with commas. -/
theorem compareValues_laws (ha : a.Distinct) (hb : b.Distinct) (c : Json) :
    (compareValues a "===" a = true ∧
      (compareValues a "===" b = true → compareValues b "===" a = true) ∧
      (compareValues a "===" b = true → compareValues b "===" c = true →
        compareValues a "===" c = true) ∧
      (compareValues a "===" b = true → compareValues a "==" b = true)) ∧
    (compareValues a "==" a = true ∧ compareValues a "==" b = compareValues b "==" a) ∧
    (compareValues a "!=" b = !compareValues a "==" b ∧
      compareValues a "!==" b = !compareValues a "===" b) ∧
    (compareValues a "<" b = compareValues b ">" a ∧
      compareValues a "<=" b = compareValues b ">=" a ∧
      ¬(compareValues a "<" b = true ∧ compareValues a ">" b = true) ∧
      (compareValues a "<=" b = true ↔ compareValues a "<" b = true ∨
        (compareValues a "<=" b = true ∧ compareValues b "<=" a = true))) ∧
    (∀ op ∈ ["<", "<=", ">", ">="], compareValues a op b = true →
      compareValues a "<=" b = true ∨ compareValues b "<=" a = true) ∧
    ∀ (items : List Json) (other : Json), other.isPlain = true → ∀ op ∈ relations,
      compareValues (.array items) op other
          = compareValues (.string (",".intercalate (items.map primitiveText))) op other ∧
        compareValues other op (.array items)
          = compareValues other op (.string (",".intercalate (items.map primitiveText))) := by
  -- an order that is read backwards is swapped, which is all that the laws of `<` and `>=` need
  have hback := order?_swap a b
  refine ⟨⟨strictEqual_refl ha, strictEqual_symm ha hb, strictEqual_trans,
    looseEqual_of_strictEqual⟩, ⟨looseEqual_of_strictEqual (strictEqual_refl ha),
    looseEqual_comm ha hb⟩, ⟨rfl, rfl⟩, ⟨?_, ?_, ?_, ?_⟩,
    fun op hop hholds => ?_, fun items other hother op hop => ?_⟩
  · show (order? a b).any (· == .lt) = (order? b a).any (· == .gt)
    rw [hback]
    rcases order? a b with _ | _ | _ | _ <;> rfl
  · show (order? a b).any (· != .gt) = (order? b a).any (· != .lt)
    rw [hback]
    rcases order? a b with _ | _ | _ | _ <;> rfl
  · show ¬((order? a b).any (· == .lt) = true ∧ (order? a b).any (· == .gt) = true)
    rcases order? a b with _ | _ | _ | _ <;> decide
  · show (order? a b).any (· != .gt) = true ↔ (order? a b).any (· == .lt) = true ∨
      ((order? a b).any (· != .gt) = true ∧ (order? b a).any (· != .gt) = true)
    rw [hback]
    rcases order? a b with _ | _ | _ | _ <;> decide
  · show (order? a b).any (· != .gt) = true ∨ (order? b a).any (· != .gt) = true
    rw [hback]
    -- whatever holds between the two, they have been compared
    have hsome : (order? a b).isSome = true := by
      by_contra hnone
      rw [Option.not_isSome_iff_eq_none] at hnone
      simp only [List.mem_cons, List.not_mem_nil, or_false] at hop
      rcases hop with rfl | rfl | rfl | rfl <;> simp [compareValues, hnone] at hholds
    obtain ⟨order, horder⟩ := Option.isSome_iff_exists.1 hsome
    rw [horder]
    cases order <;> decide
  · obtain ⟨hleft, hright⟩ := looseEqual_array items hother
    obtain ⟨hbefore, hafter⟩ := order?_array items other
    rw [← primitiveText_array]
    simp only [relations, List.mem_cons, List.not_mem_nil, or_false] at hop
    rcases hop with rfl | rfl | rfl | rfl | rfl | rfl
    · exact ⟨hleft, hright⟩
    · exact ⟨congrArg not hleft, congrArg not hright⟩
    all_goals exact ⟨congrArg (Option.any _) hbefore, congrArg (Option.any _) hafter⟩

/-- Objects with the same fields in another order, and arrays in them. -/
theorem compareValues_laws_objects :
    let left := object [("size", int 1), ("tags", array [.string "a", .null])]
    let right := object [("tags", array [.string "a", .null]), ("size", int 1)]
    left.Distinct ∧ right.Distinct ∧ compareValues left "===" right = true ∧
      compareValues right "===" left = true ∧
      compareValues (array [int 1, array [int 2, .null]]) "==" (.string "1,2,") = true := by
  intro left right
  have hleft : left.Distinct := by simp [left, Distinct, AllDistinct, FieldsDistinct, Fields.keys, int]
  have hright : right.Distinct := by simp [right, Distinct, AllDistinct, FieldsDistinct, Fields.keys, int]
  obtain ⟨⟨-, hsymm, -, -⟩, -, -, -, -, harray⟩ := compareValues_laws hleft hright left
  have hequal : compareValues left "===" right = true := by with_unfolding_all rfl
  have hitems := (harray [int 1, array [int 2, .null]] (.string "1,2,") rfl "==" (by decide)).1
  exact ⟨hleft, hright, hequal, hsymm hequal, hitems.trans (by with_unfolding_all rfl)⟩

end Json
end Frontispiece
