import Frontispiece.Json.Compare
import Frontispiece.Proofs.Deferred.Handle
import Frontispiece.Proofs.Json.Fields
import Frontispiece.Template.Helper
import Mathlib.Data.List.Forall2

/-!
# Values under two nonces

A handle is an object like any other, and holds the nonce of its pass.  Here two values are *twins*
when they are the same but for these nonces: where the one has the nonce `a` under the key of a
pass, the other has `b`.  Everything that templates do with values, but for taking the value under
that very key out of them, gives the same for twins.

A `Bool` beside the relation says whether there may be such nonces at all.  Without them twins are
the same value, but the relation also says that nothing in it is the key of a pass.

## What is here

* `Json.avoids` — a value in which no key and no string is a given word; it is a twin of itself.
* `Twin.get?`, `Twin.lookedUp` — what lies under other keys than that of a pass are twins again.
* `Twin.shown`, `Twin.compareValues` and others — twins are written and compared alike.
* `Twin.ticketOf?` — each pass takes the same ticket from its twin.

The relation is defined by recursion on both values at once, and it allows a difference in one place
only: under the key of a pass in a handle.  The lemmas go through everything that a template can do
with a value, one function after the other.  Most of them are short, but there is no way around
having one for each, since a single function that shows a nonce would break the theorem.
-/

set_option autoImplicit false

namespace Frontispiece

namespace Json

mutual

/-- Whether no key and no string in a value is a given word. -/
def avoids (word : String) : Json → Bool
  | .string s => s != word
  | .array items => avoidsItems word items
  | .object fields => avoidsFields word fields
  | _ => true

/-- Whether a word is in none of the items. -/
def avoidsItems (word : String) : List Json → Bool
  | [] => true
  | item :: rest => item.avoids word && avoidsItems word rest

/-- Whether a word is in none of the fields, and no key of them. -/
def avoidsFields (word : String) : List (String × Json) → Bool
  | [] => true
  | (key, value) :: rest => key != word && value.avoids word && avoidsFields word rest

end

end Json

namespace Deferred

mutual

/-- Two values that are the same but for nonces: `a` in the first, `b` in the second.  There are
such places only if they are `held`. -/
inductive Twin (a b : UInt64) (held : Bool) : Json → Json → Prop
  | null : Twin a b held .null .null
  | bool (value : Bool) : Twin a b held (.bool value) (.bool value)
  | number (value : Number) : Twin a b held (.number value) (.number value)
  | string {text : String} : text ≠ passKey → Twin a b held (.string text) (.string text)
  | array {xs ys : List Json} : List.Forall₂ (Twin a b held) xs ys →
    Twin a b held (.array xs) (.array ys)
  | object {xs ys : Fields Json} : List.Forall₂ (FieldTwin a b held) xs ys →
    Twin a b held (.object xs) (.object ys)

/-- Two fields of one key, with twins under it or with the two nonces. -/
inductive FieldTwin (a b : UInt64) (held : Bool) : String × Json → String × Json → Prop
  | field {key : String} {x y : Json} : key ≠ passKey → Twin a b held x y →
    FieldTwin a b held (key, x) (key, y)
  | nonce : held = true →
    FieldTwin a b held (passKey, Json.int a.toNat) (passKey, Json.int b.toNat)

end

variable {a b : UInt64} {held : Bool}

/-! ## Where twins come from

Two handles that differ in their nonces are twins, and a value in which no nonce can be is its own
twin.  With this every value of a compilation has a twin in the other. -/

mutual

/-- **A value without the key of a pass is a twin of itself**, whatever the nonces. -/
theorem Twin.of_avoids : ∀ {value : Json}, value.avoids passKey = true → Twin a b held value value
  | .null, _ => .null
  | .bool value, _ => .bool value
  | .number value, _ => .number value
  | .string _, h => .string (bne_iff_ne.1 h)
  | .array _, h => .array (itemsTwin_of_avoids h)
  | .object _, h => .object (fieldsTwin_of_avoids h)

theorem itemsTwin_of_avoids : ∀ {items : List Json}, Json.avoidsItems passKey items = true →
    List.Forall₂ (Twin a b held) items items
  | [], _ => .nil
  | item :: rest, h => by
    rw [Json.avoidsItems, Bool.and_eq_true] at h
    exact .cons (.of_avoids h.1) (itemsTwin_of_avoids h.2)

theorem fieldsTwin_of_avoids : ∀ {fields : List (String × Json)},
    Json.avoidsFields passKey fields = true → List.Forall₂ (FieldTwin a b held) fields fields
  | [], _ => .nil
  | (key, value) :: rest, h => by
    rw [Json.avoidsFields, Bool.and_eq_true, Bool.and_eq_true, bne_iff_ne] at h
    exact .cons (.field h.1.1 (.of_avoids h.1.2)) (fieldsTwin_of_avoids h.2)

end

mutual

/-- Twins stay twins where more is allowed. -/
theorem Twin.mono {more : Bool} (hle : held = true → more = true) :
    ∀ {x y : Json}, Twin a b held x y → Twin a b more x y
  | .null, _, .null => .null
  | .bool value, _, .bool _ => .bool value
  | .number value, _, .number _ => .number value
  | .string _, _, .string h => .string h
  | .array _, _, .array h => .array (itemsTwin_mono hle h)
  | .object _, _, .object h => .object (fieldsTwin_mono hle h)

theorem itemsTwin_mono {more : Bool} (hle : held = true → more = true) :
    ∀ {xs ys : List Json}, List.Forall₂ (Twin a b held) xs ys → List.Forall₂ (Twin a b more) xs ys
  | [], _, .nil => .nil
  | _ :: _, _, .cons h hrest => .cons (h.mono hle) (itemsTwin_mono hle hrest)

theorem fieldsTwin_mono {more : Bool} (hle : held = true → more = true) :
    ∀ {xs ys : List (String × Json)}, List.Forall₂ (FieldTwin a b held) xs ys →
      List.Forall₂ (FieldTwin a b more) xs ys
  | [], _, .nil => .nil
  | (_, _) :: _, _, .cons (.field hkey h) hrest =>
    .cons (.field hkey (h.mono hle)) (fieldsTwin_mono hle hrest)
  | (_, _) :: _, _, .cons (.nonce h) hrest => .cons (.nonce (hle h)) (fieldsTwin_mono hle hrest)

end

mutual

/-- **Without nonces twins are the same value.** -/
theorem Twin.eq : ∀ {x y : Json}, Twin a b false x y → x = y
  | .null, _, .null => rfl
  | .bool _, _, .bool _ => rfl
  | .number _, _, .number _ => rfl
  | .string _, _, .string _ => rfl
  | .array _, _, .array h => congrArg Json.array (itemsTwin_eq h)
  | .object _, _, .object h => congrArg Json.object (fieldsTwin_eq h)

theorem itemsTwin_eq : ∀ {xs ys : List Json}, List.Forall₂ (Twin a b false) xs ys → xs = ys
  | [], _, .nil => rfl
  | _ :: _, _, .cons h hrest => by rw [h.eq, itemsTwin_eq hrest]

theorem fieldsTwin_eq : ∀ {xs ys : List (String × Json)},
    List.Forall₂ (FieldTwin a b false) xs ys → xs = ys
  | [], _, .nil => rfl
  | (_, _) :: _, _, .cons (.field _ h) hrest => by rw [h.eq, fieldsTwin_eq hrest]

end

/-- The handles of one ticket are twins. -/
theorem Twin.handle {α : Type} {p q : Pass α} (hp : p.nonce = a) (hq : q.nonce = b)
    (ticket : Nat) : Twin a b true (p.handle ticket) (q.handle ticket) := by
  subst hp hq
  exact .object (.cons (.field (by decide) (.number _)) (.cons (.nonce rfl) .nil))

/-- A text with a character that the key of a pass does not have. -/
theorem ne_passKey {text : String} (c : Char) (hc : c ∉ passKey.toList) (h : c ∈ text.toList) :
    text ≠ passKey := by
  rintro rfl
  exact hc h

/-! ## Taking values apart

Looking something up in twins gives twins, except under the key of the nonce.  There the two would
differ, and this is why a key that is looked up must not be that one. -/

/-- What lies under a key are twins, unless it is the key of a pass in a handle. -/
theorem FieldTwin.get? {xs ys : Fields Json} (h : List.Forall₂ (FieldTwin a b held) xs ys)
    {key : String} (hkey : key ≠ passKey ∨ held = false) :
    Option.Rel (Twin a b held) (Fields.get? xs key) (Fields.get? ys key) := by
  induction h with
  | nil => exact .none
  | @cons _ _ xs ys hfield _ ih =>
    cases hfield with
    | @field other x y hother htwin =>
      simp only [Fields.get?_cons]
      split
      · exact .some htwin
      · exact ih
    | nonce hheld =>
      have hne : passKey ≠ key := by
        rcases hkey with hkey | hkey
        · exact hkey.symm
        · exact absurd hheld (by simp [hkey])
      simpa only [Fields.get?_cons, if_neg hne] using ih

/-- Without nonces, two fields are of one key, which is not that of a pass. -/
theorem FieldTwin.free {x y : String × Json} (h : FieldTwin a b false x y) :
    x.1 = y.1 ∧ x.1 ≠ passKey ∧ Twin a b false x.2 y.2 := by
  cases h with
  | field hkey htwin => exact ⟨rfl, hkey, htwin⟩
  | nonce hheld => cases hheld

/-- Under the key of a pass are the two nonces, or nothing. -/
theorem FieldTwin.get?_passKey {xs ys : Fields Json}
    (h : List.Forall₂ (FieldTwin a b held) xs ys) :
    (Fields.get? xs passKey = none ∧ Fields.get? ys passKey = none) ∨
      (Fields.get? xs passKey = some (Json.int a.toNat) ∧
        Fields.get? ys passKey = some (Json.int b.toNat)) := by
  induction h with
  | nil => exact .inl ⟨rfl, rfl⟩
  | cons hfield _ ih =>
    cases hfield with
    | field hkey htwin => simpa only [Fields.get?_cons, if_neg hkey] using ih
    | nonce hheld => exact .inr ⟨rfl, rfl⟩

/-- A field under another key keeps twins. -/
theorem FieldTwin.insert {key : String} (hkey : key ≠ passKey) {x y : Json}
    (hvalue : Twin a b held x y) {xs ys : Fields Json}
    (h : List.Forall₂ (FieldTwin a b held) xs ys) :
    List.Forall₂ (FieldTwin a b held) (xs.insert key x) (ys.insert key y) := by
  induction h with
  | nil => exact .cons (.field hkey hvalue) .nil
  | cons hfield hrest ih =>
    cases hfield with
    | field hother htwin =>
      simp only [Fields.insert]
      split
      · exact .cons (.field hkey hvalue) hrest
      · exact .cons (.field hother htwin) ih
    | nonce hheld =>
      have hne : ¬(passKey == key) = true := by simpa using hkey.symm
      simp only [Fields.insert, if_neg hne]
      exact .cons (.nonce hheld) ih

/-- Two values that are related, or none of them. -/
theorem rel_cases {α β : Type} {R : α → β → Prop} {x : Option α} {y : Option β}
    (h : Option.Rel R x y) :
    (x = none ∧ y = none) ∨ ∃ v w, x = some v ∧ y = some w ∧ R v w := by
  cases h with
  | none => exact .inl ⟨rfl, rfl⟩
  | some h => exact .inr ⟨_, _, rfl, rfl, h⟩

/-- An item of one list, and the item at its place in the other. -/
theorem forall₂_getElem? {α β : Type} {R : α → β → Prop} {xs : List α} {ys : List β}
    (h : List.Forall₂ R xs ys) (n : Nat) : Option.Rel R xs[n]? ys[n]? := by
  induction h generalizing n with
  | nil => exact .none
  | cons h _ ih =>
    cases n with
    | zero => exact .some h
    | succ n => exact ih n

namespace Twin

theorem natural? {x y : Json} (h : Twin a b held x y) : x.natural? = y.natural? := by
  cases h <;> rfl

/-- A string is the same in both, and never the key of a pass. -/
theorem string? {x y : Json} (h : Twin a b held x y) :
    x.string? = y.string? ∧ ∀ s, x.string? = some s → s ≠ passKey := by
  cases h with
  | string hne =>
    refine ⟨rfl, fun s hs => ?_⟩
    cases hs
    exact hne
  | _ => exact ⟨rfl, fun _ hs => by cases hs⟩

theorem getD_null {x y : Option Json} (h : Option.Rel (Twin a b held) x y) :
    Twin a b held (x.getD .null) (y.getD .null) := by
  cases h with
  | none => exact .null
  | some h => exact h

theorem bind_natural? {x y : Option Json} (h : Option.Rel (Twin a b held) x y) :
    x.bind Json.natural? = y.bind Json.natural? := by
  cases h with
  | none => rfl
  | some h => exact h.natural?

/-- **What is looked up in twins are twins.** -/
theorem lookedUp {more : Bool} {xs ys x y : Json} (hvalue : Twin a b held xs ys)
    (hindex : Twin a b more x y) :
    Twin a b held (Template.Helper.lookedUp xs x) (Template.Helper.lookedUp ys y) := by
  cases hvalue with
  | array h =>
    simp only [Template.Helper.lookedUp, hindex.natural?]
    cases y.natural? with
    | none => exact .null
    | some n => exact getD_null (forall₂_getElem? h n)
  | object h =>
    simp only [Template.Helper.lookedUp]
    rw [← hindex.string?.1]
    cases hkey : x.string? with
    | none => exact .null
    | some key => exact getD_null (FieldTwin.get? h (.inl (hindex.string?.2 key hkey)))
  | _ => exact .null

/-! ## What is seen of values

Whatever a template can find out about a value, other than by looking at a nonce, is the same for
twins: its truth, its size, its text, and how it compares. -/

theorem isTruthy {x y : Json} (h : Twin a b held x y) (included : Bool) :
    Template.isTruthy included x = Template.isTruthy included y := by
  cases h with
  | array h => cases h <;> rfl
  | object h => cases h <;> rfl
  | _ => rfl

theorem sizeOf {x y : Json} (h : Twin a b held x y) :
    Template.Helper.sizeOf x = Template.Helper.sizeOf y := by
  cases h with
  | array h => exact h.length_eq
  | object h => exact h.length_eq
  | _ => rfl

theorem shownItems_cons_cons (item next : Json) (rest : List Json) :
    Template.shownItems (item :: next :: rest)
      = Template.shown item ++ ", " ++ Template.shownItems (next :: rest) := by
  rw [Template.shownItems]
  simp

mutual

/-- **Twins are shown by one text.** -/
theorem shown : ∀ {x y : Json}, Twin a b held x y → Template.shown x = Template.shown y
  | .null, _, .null => rfl
  | .bool _, _, .bool _ => rfl
  | .number _, _, .number _ => rfl
  | .string _, _, .string _ => rfl
  | .array _, _, .array h => by rw [Template.shown, Template.shown, shownItems h]
  | .object _, _, .object _ => by rw [Template.shown, Template.shown]

theorem shownItems : ∀ {xs ys : List Json}, List.Forall₂ (Twin a b held) xs ys →
    Template.shownItems xs = Template.shownItems ys
  | [], _, .nil => rfl
  | [_], _, .cons h .nil => h.shown
  | _ :: _ :: _, _, .cons h (.cons hnext hrest) => by
    rw [shownItems_cons_cons, shownItems_cons_cons, h.shown, shownItems (.cons hnext hrest)]

end

mutual

/-- Twins are compared by one text. -/
theorem primitiveText : ∀ {x y : Json}, Twin a b held x y → x.primitiveText = y.primitiveText
  | .null, _, .null => rfl
  | .bool _, _, .bool _ => rfl
  | .number _, _, .number _ => rfl
  | .string _, _, .string _ => rfl
  | .array _, _, .array h => by rw [Json.primitiveText, Json.primitiveText, primitiveTexts h]
  | .object _, _, .object _ => by rw [Json.primitiveText, Json.primitiveText]

theorem primitiveTexts : ∀ {xs ys : List Json}, List.Forall₂ (Twin a b held) xs ys →
    Json.primitiveTexts xs = Json.primitiveTexts ys
  | [], _, .nil => rfl
  | _ :: _, _, .cons h hrest => by
    rw [Json.primitiveTexts, Json.primitiveTexts, h.primitiveText, primitiveTexts hrest]

end

theorem toFloat {x y : Json} (h : Twin a b held x y) : x.toFloat = y.toFloat := by
  cases h with
  | array h => rw [Json.toFloat, Json.toFloat, (Twin.array h).primitiveText]
  | _ => rfl

/-- Twins stand for one primitive value, but for other values than arrays and objects. -/
theorem primitive {x y : Json} (h : Twin a b held x y) : x.primitive = y.primitive := by
  cases h with
  | array h => rw [Json.primitive, Json.primitive, (Twin.array h).primitiveText]
  | object h => rw [Json.primitive, Json.primitive, (Twin.object h).primitiveText]
  | _ => rfl

theorem truthy {x y : Json} (h : Twin a b held x y) : x.truthy = y.truthy := by
  cases h <;> rfl

variable {more : Bool}

mutual

/-- **Two values are equal exactly when their twins are.**  Nonces only meet nonces. -/
theorem equal : ∀ {x x' y y' : Json}, Twin a b held x x' → Twin a b more y y' →
    x.equal y = x'.equal y'
  | .null, _, _, _, .null, hy => by cases hy <;> rfl
  | .bool _, _, _, _, .bool _, hy => by cases hy <;> rfl
  | .number _, _, _, _, .number _, hy => by cases hy <;> rfl
  | .string _, _, _, _, .string _, hy => by cases hy <;> rfl
  | .array _, _, _, _, .array hx, hy => by
    cases hy with
    | array hy => rw [Json.equal, Json.equal, equalItems hx hy]
    | _ => simp [Json.equal]
  | .object _, _, _, _, .object hx, hy => by
    cases hy with
    | object hy =>
      rw [Json.equal, Json.equal, hx.length_eq, hy.length_eq, equalFields hx hy]
    | _ => simp [Json.equal]

theorem equalItems : ∀ {xs xs' ys ys' : List Json}, List.Forall₂ (Twin a b held) xs xs' →
    List.Forall₂ (Twin a b more) ys ys' → Json.equalItems xs ys = Json.equalItems xs' ys'
  | [], _, _, _, .nil, hys => by cases hys <;> rfl
  | _ :: _, _, _, _, .cons hx hxs, hys => by
    cases hys with
    | nil => rfl
    | cons hy hys => rw [Json.equalItems, Json.equalItems, equal hx hy, equalItems hxs hys]

theorem equalFields : ∀ {xs xs' ys ys' : List (String × Json)},
    List.Forall₂ (FieldTwin a b held) xs xs' → List.Forall₂ (FieldTwin a b more) ys ys' →
      Json.equalFields xs ys = Json.equalFields xs' ys'
  | [], _, _, _, .nil, _ => by rw [Json.equalFields, Json.equalFields]
  | (_, x) :: _, _, _, _, .cons (.field hkey hx) hxs, hys => by
    rw [Json.equalFields, Json.equalFields, equalFields hxs hys]
    rcases rel_cases (FieldTwin.get? hys (.inl hkey)) with ⟨hy, hy'⟩ | ⟨y, y', hy, hy', htwin⟩
    · rw [hy, hy']
    · simp only [hy, hy', equal hx htwin]
  | (_, _) :: _, _, _, _, .cons (.nonce _) hxs, hys => by
    rw [Json.equalFields, Json.equalFields, equalFields hxs hys]
    -- the nonce of the first run meets that of the first run, and so in the second
    rcases FieldTwin.get?_passKey hys with ⟨hy, hy'⟩ | ⟨hy, hy'⟩
    · rw [hy, hy']
    · simp [hy, hy', Json.int, Json.equal, Number.equal]

end

theorem strictEqual {x x' y y' : Json} (hx : Twin a b held x x') (hy : Twin a b more y y') :
    x.strictEqual y = x'.strictEqual y' := by
  have heq := equal hx hy
  cases hx <;> cases hy <;> first | rfl | exact heq

theorem looseEqual {x x' y y' : Json} (hx : Twin a b held x x') (hy : Twin a b more y y') :
    x.looseEqual y = x'.looseEqual y' := by
  have hstrict := strictEqual hx hy
  have hfloat := hx.toFloat
  have hfloat' := hy.toFloat
  have htext := hx.primitiveText
  have htext' := hy.primitiveText
  have hprimitive := hx.primitive
  have hprimitive' := hy.primitive
  cases hx <;> cases hy <;> simp only [Json.looseEqual, hstrict, hfloat, hfloat', htext, htext',
    hprimitive, hprimitive']

theorem order? {x x' y y' : Json} (hx : Twin a b held x x') (hy : Twin a b more y y') :
    x.order? y = x'.order? y' := by
  rw [Json.order?, Json.order?, hx.primitive, hy.primitive]

/-- **Twins compare alike by every operator.** -/
theorem compareValues {x x' y y' : Json} (hx : Twin a b held x x') (hy : Twin a b more y y')
    (op : String) : x.compareValues op y = x'.compareValues op y' := by
  simp only [Json.compareValues, looseEqual hx hy, strictEqual hx hy, order? hx hy, hx.truthy,
    hy.truthy]

/-- A nonce is read back from a handle. -/
theorem natural?_nonce (nonce : UInt64) :
    (Json.int nonce.toNat).natural? = some nonce.toNat := by
  have hlt : nonce.toNat < Pass.ticketCount := nonce.toNat_lt
  rw [Pass.natural?_int, if_pos hlt]

/-- **Each pass takes the same ticket from its twin.** -/
theorem ticketOf? {α : Type} {p q : Pass α} (hp : p.nonce = a) (hq : q.nonce = b) {x y : Json}
    (h : Twin a b held x y) : p.ticketOf? x = q.ticketOf? y := by
  subst hp hq
  cases h with
  | @object xs ys h =>
    have hticket := bind_natural? (FieldTwin.get? h (.inl (by decide : handleKey ≠ passKey)))
    rw [Pass.ticketOf?, Pass.ticketOf?, h.length_eq, hticket]
    rcases FieldTwin.get?_passKey h with ⟨hx, hy⟩ | ⟨hx, hy⟩
    · rw [hx, hy, Option.bind_none]
      rfl
    · rw [hx, hy, Option.bind_some, Option.bind_some, natural?_nonce, natural?_nonce]
      simp only [beq_self_eq_true]
  | _ => rfl

end Twin
end Deferred
end Frontispiece
