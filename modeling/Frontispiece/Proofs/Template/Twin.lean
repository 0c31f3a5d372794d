import Frontispiece.Proofs.Deferred.Twin
import Frontispiece.Proofs.Template.Simulation

/-!
# Scopes and helpers under two nonces

The same place of a template is met by two evaluations that differ in their nonce.  Its scopes are
*twins* when they hold twins at the same places; and helpers that are called there with twins answer
with twins.  One helper is apart from the others: `each` goes through the fields of an object, so it
must not be given a handle.

As for values, a `Bool` beside each relation says whether there may be nonces.

## What is here

* `Leads` — where the first of two results is there, so is the second, and they are related.
* `ScopeTwin.resolve` — paths lead to twins, unless a key of them is that of a pass.
* `asked_twin`, `written_twin` — helpers that ask something of two values, and helpers that give what
  a text names.  `each_twin`, `log_twin` and `compare_twin` are about single ones.
* `act_twin`, `answer_twin` — helpers answer alike, by cases on the helper.
* `partialScope_twin` — the scopes inside a partial are twins.

Everything in this module is about values and scopes and nothing about what is written.  The flags
beside the relations are the invariant: a scope that is not open has no nonces in its blocks, so
what is found there is the same in both evaluations.  Each lemma says how flags of what goes in
determine flags of what comes out, and the conditions of discreet templates are made so that the
flags can be met.
-/

set_option autoImplicit false

namespace Frontispiece
namespace Template

open Deferred (FieldTwin Twin forall₂_getElem? passKey rel_cases)

variable {α β γ δ : Type}

/-! ## Results that are related

A result may be missing, in which case nothing is said.  This is the one-sided relation of all
lemmas below, as one evaluation leads and the other follows. -/

/-- Where the first has a result, the second has one too, and they are related. -/
def Leads (R : α → β → Prop) (x : Except Fault α) (y : Except Fault β) : Prop :=
  ∀ v, x = .ok v → ∃ w, y = .ok w ∧ R v w

namespace Leads

variable {R : α → β → Prop} {S : γ → δ → Prop} {x : Except Fault α} {y : Except Fault β}

theorem ok {v : α} {w : β} (h : R v w) : Leads R (.ok v) (.ok w) := by
  rintro _ ⟨⟩
  exact ⟨w, rfl, h⟩

theorem error (fault : Fault) : Leads R (.error fault) y := by
  rintro _ ⟨⟩

theorem bind {f : α → Except Fault γ} {g : β → Except Fault δ} (h : Leads R x y)
    (hf : ∀ v w, R v w → Leads S (f v) (g w)) : Leads S (x >>= f) (y >>= g) := by
  intro c hc
  obtain ⟨v, rfl, hc⟩ := bind_eq_ok.1 hc
  obtain ⟨w, rfl, hR⟩ := h v rfl
  exact hf v w hR c hc

theorem mono {T : α → β → Prop} (h : Leads R x y) (hle : ∀ v w, R v w → T v w) : Leads T x y := by
  intro v hv
  obtain ⟨w, hw, hR⟩ := h v hv
  exact ⟨w, hw, hle v w hR⟩

end Leads

/-- Two values under one name. -/
def Named (R : α → α → Prop) (x y : String × α) : Prop := x.1 = y.1 ∧ R x.2 y.2

/-- What is found by name is related, as the names are the same on both sides. -/
theorem lookup_named {R : α → α → Prop} {xs ys : List (String × α)}
    (h : List.Forall₂ (Named R) xs ys) (name : String) :
    Option.Rel R (xs.lookup name) (ys.lookup name) := by
  induction h with
  | nil => exact .none
  | @cons x y _ _ hfirst _ ih =>
    obtain ⟨key, x⟩ := x
    obtain ⟨_, y⟩ := y
    obtain ⟨rfl, hR⟩ := hfirst
    simp only [List.lookup_cons]
    cases name == key with
    | true => exact .some hR
    | false => exact ih

variable {a b : UInt64} {held more : Bool}

/-! ## What expressions stand for

A value of data is the same on both sides, while one that was computed may have nonces in it.  The
flag says whether it may, and a flag may always be raised. -/

/-- What expressions stand for, at the same place.  There are no nonces in data. -/
inductive FoundTwin (a b : UInt64) (held : Bool) : Found → Found → Prop
  | missing : FoundTwin a b held .missing .missing
  | inData (keys : List String) {value : Json} : Twin a b false value value →
    FoundTwin a b held (.inData keys value) (.inData keys value)
  | value {x y : Json} : Twin a b held x y → FoundTwin a b held (.value x) (.value y)

namespace FoundTwin

theorem json {x y : Found} (h : FoundTwin a b held x y) : Twin a b held x.json y.json := by
  cases h with
  | missing => exact .null
  | inData keys h => exact h.mono (by simp)
  | value h => exact h

theorem mono (hle : held = true → more = true) {x y : Found} (h : FoundTwin a b held x y) :
    FoundTwin a b more x y := by
  cases h with
  | missing => exact .missing
  | inData keys h => exact .inData keys h
  | value h => exact .value (h.mono hle)

end FoundTwin

/-- What names of a block stand for. -/
inductive BindingTwin (a b : UInt64) (held : Bool) : Binding → Binding → Prop
  | here : BindingTwin a b held .here .here
  | value {x y : Json} : Twin a b held x y → BindingTwin a b held (.value x) (.value y)

/-- Blocks that hold twins.  Variables of loops have no nonces, since loops go through none. -/
structure BlockTwin (a b : UInt64) (held : Bool) (x y : Block) : Prop where
  keys : x.keys = y.keys
  value : Option.Rel (Twin a b held) x.value y.value
  names : List.Forall₂ (Named (BindingTwin a b held)) x.names y.names
  locals : List.Forall₂ (FieldTwin a b false) x.locals y.locals

/-- Scopes at the same place, over data without nonces. -/
structure ScopeTwin (a b : UInt64) (held : Bool) (s t : Scope) : Prop where
  data : s.data = t.data
  free : Twin a b false s.data s.data
  blocks : List.Forall₂ (BlockTwin a b held) s.blocks t.blocks
  bodies : s.bodies = t.bodies
  depth : s.depth = t.depth
  indent : s.indent = t.indent

theorem BindingTwin.mono (hle : held = true → more = true) {x y : Binding}
    (h : BindingTwin a b held x y) : BindingTwin a b more x y := by
  cases h with
  | here => exact .here
  | value h => exact .value (h.mono hle)

theorem BlockTwin.mono (hle : held = true → more = true) {x y : Block}
    (h : BlockTwin a b held x y) : BlockTwin a b more x y where
  keys := h.keys
  value := by
    rcases rel_cases h.value with ⟨hx, hy⟩ | ⟨_, _, hx, hy, hvalue⟩
    · rw [hx, hy]
      exact .none
    · rw [hx, hy]
      exact .some (hvalue.mono hle)
  names := h.names.imp fun _ _ hname => ⟨hname.1, hname.2.mono hle⟩
  locals := h.locals

/-! ## Paths

A path leads through blocks and then down by its keys.  Data has no nonces in it, so only a path
that starts from a computed value can come to one, and only by the key of a pass. -/

/-- The keys of a path. -/
def Path.keys : Path → List String
  | .loopVariable _ _ => []
  | .relative _ keys => keys
  | .absolute keys => keys

/-- Whether a path starts from the value of a block. -/
def Path.isRelative : Path → Bool
  | .relative _ _ => true
  | _ => false

/-- Twins have twins below each key, except below the key of the pass when they hold a handle. -/
theorem child_twin {x y : Json} (h : Twin a b held x y) {key : String}
    (hkey : key ≠ passKey ∨ held = false) :
    Leads (Option.Rel (Twin a b held)) (child key x) (child key y) := by
  cases h with
  | array h =>
    rw [child, child]
    cases position? key with
    | none => exact .error _
    | some n => exact .ok (forall₂_getElem? h n)
  | object h => exact .ok (FieldTwin.get? h hkey)
  | _ => exact .ok .none

/-- So they have at the end of a path that does not go through that key. -/
theorem descend_twin : ∀ (keys : List String) {x y : Json}, Twin a b held x y →
    ((∀ key ∈ keys, key ≠ passKey) ∨ held = false) →
      Leads (Option.Rel (Twin a b held)) (descend x keys) (descend y keys)
  | [], _, _, h, _ => .ok (.some h)
  | key :: rest, x, y, h, hkeys => by
    have hkey : key ≠ passKey ∨ held = false := hkeys.imp_left fun h => h key List.mem_cons_self
    have hrest : (∀ key ∈ rest, key ≠ passKey) ∨ held = false :=
      hkeys.imp_left fun h key hmem => h key (List.mem_cons_of_mem _ hmem)
    rw [descend, descend]
    refine (child_twin h hkey).bind fun _ _ hchild => ?_
    cases hchild with
    | none => exact .ok .none
    | some hchild => exact descend_twin rest hchild hrest

theorem inside_twin {keys : List String} (hkeys : ∀ key ∈ keys, key ≠ passKey) {x y : Json}
    (h : Twin a b held x y) :
    Leads (FoundTwin a b held) (Scope.inside x keys) (Scope.inside y keys) := by
  refine (descend_twin keys h (.inl hkeys)).bind fun _ _ hvalue => ?_
  cases hvalue with
  | none => exact .ok .missing
  | some hvalue => exact .ok (.value hvalue)

namespace ScopeTwin

variable {s t : Scope}

theorem mono (hle : held = true → more = true) (h : ScopeTwin a b held s t) :
    ScopeTwin a b more s t :=
  { h with blocks := h.blocks.imp fun _ _ hblock => hblock.mono hle }

theorem enter (h : ScopeTwin a b held s t) {x y : Block} (hblock : BlockTwin a b held x y) :
    ScopeTwin a b held (s.enter x) (t.enter y) :=
  { h with blocks := .cons hblock h.blocks }

/-- **What lies in the data is the same for both**, and has no nonces. -/
theorem absolute (h : ScopeTwin a b held s t) (keys : List String) :
    Leads (FoundTwin a b more) (s.absolute keys) (t.absolute keys) := by
  intro found hfound
  -- both look into the same data, so only the value that is found has to be a twin of itself
  refine ⟨found, by rw [Scope.absolute, ← h.data]; exact hfound, ?_⟩
  obtain ⟨value, hvalue, hfound⟩ := bind_eq_ok.1 hfound
  obtain ⟨_, hsame, htwin⟩ := descend_twin keys h.free (.inr rfl) value hvalue
  cases hvalue.symm.trans hsame
  cases htwin with
  | none =>
    cases hfound
    exact .missing
  | some htwin =>
    cases hfound
    exact .inData keys htwin

/-- A path that does not go through that key leads to twins from whichever block it starts. -/
theorem relative (h : ScopeTwin a b held s t) (up : Nat) {keys : List String}
    (hkeys : ∀ key ∈ keys, key ≠ passKey) :
    Leads (FoundTwin a b held) (s.relative up keys) (t.relative up keys) := by
  have hblock : Option.Rel (BlockTwin a b held) (s.blocks[up]? <|> s.blocks.head?)
      (t.blocks[up]? <|> t.blocks.head?) := by
    have hhead := forall₂_getElem? h.blocks 0
    rw [← List.head?_eq_getElem?, ← List.head?_eq_getElem?] at hhead
    rcases rel_cases (forall₂_getElem? h.blocks up) with ⟨hs, ht⟩ | ⟨_, _, hs, ht, hblock⟩
    · rw [hs, ht]
      exact hhead
    · rw [hs, ht]
      exact .some hblock
  rw [Scope.relative, Scope.relative]
  rcases rel_cases hblock with ⟨hs, ht⟩ | ⟨⟨_, x, _, _⟩, ⟨_, y, _, _⟩, hs, ht, rfl, hvalue, -, -⟩
  · rw [hs, ht]
    exact h.absolute keys
  · rw [hs, ht]
    cases hvalue with
    | none => exact h.absolute _
    | some hvalue => exact inside_twin hkeys hvalue

/-- Names of blocks stand for the same in both. -/
theorem binding? (h : ScopeTwin a b held s t) (name : String) :
    Option.Rel (fun x y => BindingTwin a b held x.1 y.1 ∧ x.2 = y.2) (s.binding? name)
      (t.binding? name) := by
  have hblocks := h.blocks
  rw [Scope.binding?, Scope.binding?]
  generalize s.blocks = xs at hblocks ⊢
  generalize t.blocks = ys at hblocks ⊢
  induction hblocks with
  | nil => exact .none
  | @cons x y _ _ hblock _ ih =>
    rw [List.findSome?_cons, List.findSome?_cons]
    rcases rel_cases (lookup_named hblock.names name) with ⟨hx, hy⟩ | ⟨_, _, hx, hy, hbinding⟩
    · rw [hx, hy]
      exact ih
    · rw [hx, hy]
      exact .some ⟨hbinding, hblock.keys⟩

/-- **Paths lead to twins**, unless a key of them is that of a pass. -/
theorem resolve (h : ScopeTwin a b held s t) {path : Path}
    (hkeys : ∀ key ∈ path.keys, key ≠ passKey) :
    Leads (FoundTwin a b (held && path.isRelative)) (s.resolve path) (t.resolve path) := by
  cases path with
  | loopVariable level name =>
    have hlocal : Option.Rel (Twin a b false)
        ((s.blocks[level]?).bind fun block => Fields.get? block.locals name)
        ((t.blocks[level]?).bind fun block => Fields.get? block.locals name) := by
      rcases rel_cases (forall₂_getElem? h.blocks level) with ⟨hs, ht⟩ | ⟨_, _, hs, ht, hblock⟩
      · rw [hs, ht]
        exact .none
      · rw [hs, ht]
        exact FieldTwin.get? hblock.locals (.inr rfl)
    rw [Scope.resolve, Scope.resolve]
    rcases rel_cases hlocal with ⟨hs, ht⟩ | ⟨_, _, hs, ht, hvalue⟩
    · rw [hs, ht]
      exact .ok .missing
    · rw [hs, ht]
      exact .ok (.value (hvalue.mono (by simp)))
  | absolute keys => exact h.absolute keys
  | relative up keys =>
    simp only [Path.isRelative, Bool.and_true]
    cases keys with
    | nil => exact h.relative up hkeys
    | cons key rest =>
      have hrest : ∀ key ∈ rest, key ≠ passKey := fun key hmem =>
        hkeys key (List.mem_cons_of_mem _ hmem)
      simp only [Scope.resolve]
      rcases rel_cases (h.binding? key) with ⟨hs, ht⟩ | ⟨⟨_, base⟩, ⟨_, _⟩, hs, ht, hbinding, rfl⟩
      · rw [hs, ht]
        exact h.relative up hkeys
      · rw [hs, ht]
        cases hbinding with
        | here => exact h.absolute (base ++ rest)
        | value hvalue => exact inside_twin hrest hvalue

end ScopeTwin

/-! ## Calls

The arguments of a call are values, some of them with the keys under which they lie in the data.
How much a helper may see of a nonce depends on the argument, which is why the first one has a flag
of its own. -/

/-- Arguments of a call: what the first stands for has nonces only if it is `held`. -/
inductive ArgsTwin (a b : UInt64) (held : Bool) : List Found → List Found → Prop
  | nil : ArgsTwin a b held [] []
  | cons {x y : Found} {xs ys : List Found} : FoundTwin a b held x y →
    List.Forall₂ (FoundTwin a b true) xs ys → ArgsTwin a b held (x :: xs) (y :: ys)

theorem ArgsTwin.all {xs ys : List Found} (h : ArgsTwin a b held xs ys) :
    List.Forall₂ (FoundTwin a b true) xs ys := by
  cases h with
  | nil => exact .nil
  | cons h hrest => exact .cons (h.mono fun _ => rfl) hrest

/-- Calls with twins: the first argument has nonces only if it is `held`, and those by name only if
they are `named`. -/
structure UseTwin (a b : UInt64) (held named : Bool) (u v : Helper.Use) : Prop where
  name : u.name = v.name
  args : ArgsTwin a b held u.args v.args
  named : List.Forall₂ (Named (FoundTwin a b named)) u.named v.named
  fields : ∀ entry ∈ u.named, entry.1 ≠ passKey
  names : u.names = v.names

namespace UseTwin

variable {named : Bool} {u v : Helper.Use}

/-- The first argument is the only one that may be a handle. -/
theorem arg_zero (h : UseTwin a b held named u v) :
    Leads (FoundTwin a b held) (u.arg 0) (v.arg 0) := by
  have hargs := h.args
  rw [Helper.Use.arg, Helper.Use.arg]
  generalize u.args = xs at hargs ⊢
  generalize v.args = ys at hargs ⊢
  cases hargs with
  | nil => exact .error _
  | cons h _ => exact .ok h

theorem arg (h : UseTwin a b held named u v) (position : Nat) :
    Leads (FoundTwin a b true) (u.arg position) (v.arg position) := by
  rw [Helper.Use.arg, Helper.Use.arg]
  rcases rel_cases (forall₂_getElem? h.args.all position) with ⟨hu, hv⟩ | ⟨_, _, hu, hv, hfound⟩
  · rw [hu, hv]
    exact .error _
  · rw [hu, hv]
    exact .ok hfound

theorem argOrNull (h : UseTwin a b held named u v) (position : Nat) :
    Twin a b true (u.argOrNull position) (v.argOrNull position) := by
  rw [Helper.Use.argOrNull, Helper.Use.argOrNull]
  rcases rel_cases (forall₂_getElem? h.args.all position) with ⟨hu, hv⟩ | ⟨_, _, hu, hv, hfound⟩
  · rw [hu, hv]
    exact .null
  · rw [hu, hv]
    exact hfound.json

/-- Arguments that have to be texts are the same on both sides, because a handle is none. -/
theorem text (h : UseTwin a b held named u v) (position : Nat) :
    Leads (· = ·) (u.text position) (v.text position) := by
  have hvalue := h.argOrNull position
  rw [Helper.Use.text, Helper.Use.text]
  generalize u.argOrNull position = x at hvalue ⊢
  generalize v.argOrNull position = y at hvalue ⊢
  cases hvalue with
  | string => exact .ok rfl
  | _ => exact .error _

/-- So are those that have to be whole numbers. -/
theorem whole (h : UseTwin a b held named u v) (position : Nat) :
    Leads (· = ·) (u.whole position) (v.whole position) := by
  refine (h.arg position).bind fun x y hfound => ?_
  have hvalue := hfound.json
  generalize x.json = x at hvalue ⊢
  generalize y.json = y at hvalue ⊢
  cases hvalue with
  | number value =>
    cases value with
    | int n =>
      dsimp only
      split
      · exact .ok rfl
      · exact .error _
    | float => exact .error _
  | _ => exact .error _

/-- What a call is given by name are twins. -/
theorem namedValue? (h : UseTwin a b held named u v) (name : String) :
    Option.Rel (Twin a b named) (u.namedValue? name) (v.namedValue? name) := by
  rw [Helper.Use.namedValue?, Helper.Use.namedValue?]
  rcases rel_cases (lookup_named (List.forall₂_reverse_iff.2 h.named) name) with
    ⟨hu, hv⟩ | ⟨_, _, hu, hv, hfound⟩
  · rw [hu, hv]
    exact .none
  · rw [hu, hv]
    exact .some hfound.json

/-- What is asked of an argument by name, if twins answer it alike. -/
theorem any_namedValue? (h : UseTwin a b held named u v) (name : String) {f : Json → Bool}
    (hf : ∀ x y, Twin a b named x y → f x = f y) :
    (u.namedValue? name).any f = (v.namedValue? name).any f := by
  rcases rel_cases (h.namedValue? name) with ⟨hu, hv⟩ | ⟨x, y, hu, hv, hvalue⟩
  · rw [hu, hv]
  · rw [hu, hv]
    exact hf x y hvalue

end UseTwin

/-! ## Blocks

A loop binds items, keys and positions.  It must not go through what has nonces, as the nonce would
be an item; everything else that a block binds is handed on. -/

/-- Only the names of a call matter to the blocks of items. -/
theorem itemBlocks_congr {u v : Helper.Use} (h : u.names = v.names) (whole : Found) :
    Helper.itemBlocks u whole = Helper.itemBlocks v whole := by
  simp only [Helper.itemBlocks, Helper.itemBlock, h]

/-- Names of a block that stand for twins of themselves. -/
theorem named_same {names : List (String × Binding)}
    (h : ∀ entry ∈ names, BindingTwin a b held entry.2 entry.2) :
    List.Forall₂ (Named (BindingTwin a b held)) names names :=
  List.forall₂_same.2 fun entry hentry => ⟨rfl, h entry hentry⟩

/-- The block of an item is a twin of itself, when there are no nonces in what it is an item of. -/
theorem itemBlock_twin (u : Helper.Use) (whole : Found) {key : String} {index item : Json}
    {locals : Fields Json} (hindex : Twin a b false index index) (hitem : Twin a b false item item)
    (hlocals : List.Forall₂ (FieldTwin a b false) locals locals) :
    BlockTwin a b held (Helper.itemBlock u whole key index item locals)
      (Helper.itemBlock u whole key index item locals) := by
  have hle : false = true → held = true := by simp
  have hindex' : BindingTwin a b held (.value index) (.value index) := .value (hindex.mono hle)
  have hitem' : BindingTwin a b held (.value item) (.value item) := .value (hitem.mono hle)
  have hhere : BindingTwin a b held .here .here := .here
  cases whole with
  | inData keys value =>
    refine ⟨rfl, .none, named_same ?_, hlocals⟩
    simp only [Helper.itemBlock]
    rcases u.names with _ | ⟨name, _ | ⟨indexName, _ | _⟩⟩ <;> simp [hindex', hhere]
  | _ =>
    refine ⟨rfl, .some (hitem.mono hle), named_same ?_, hlocals⟩
    simp only [Helper.itemBlock]
    rcases u.names with _ | ⟨name, _ | ⟨indexName, _ | _⟩⟩ <;> simp [hindex', hitem']

/-- **The blocks of a value without nonces** are twins of themselves. -/
theorem itemBlocks_twin (u : Helper.Use) {whole : Found}
    (h : Twin a b false whole.json whole.json) :
    ∀ block ∈ Helper.itemBlocks u whole, BlockTwin a b held block block := by
  intro block hblock
  have hlocals {key : String} {index : Json} (hkey : key ≠ passKey)
      (hindex : Twin a b false index index) (first last : Bool) :
      List.Forall₂ (FieldTwin a b false)
        [("first", Json.bool first), ("last", Json.bool last), (key, index)]
        [("first", Json.bool first), ("last", Json.bool last), (key, index)] :=
    .cons (.field (by decide) (.bool first)) (.cons (.field (by decide) (.bool last))
      (.cons (.field hkey hindex) .nil))
  rw [Helper.itemBlocks] at hblock
  generalize whole.json = value at h hblock
  cases h with
  | array h =>
    obtain ⟨⟨item, position⟩, hmem, rfl⟩ := List.mem_map.1 hblock
    have hitem := List.forall₂_same.1 h item (List.fst_mem_of_mem_zipIdx hmem)
    have hindex : Twin a b false (Json.int position) (Json.int position) := .number _
    exact itemBlock_twin u whole hindex hitem (hlocals (by decide) hindex _ _)
  | object h =>
    obtain ⟨⟨⟨key, item⟩, position⟩, hmem, rfl⟩ := List.mem_map.1 hblock
    obtain ⟨-, hkey, hitem⟩ := (List.forall₂_same.1 h _ (List.fst_mem_of_mem_zipIdx hmem)).free
    have hindex : Twin a b false (Json.string key) (Json.string key) := .string hkey
    exact itemBlock_twin u whole hindex hitem (hlocals (by decide) hindex _ _)
  | _ => cases hblock

/-- The block that a helper opens for a value holds what the value holds. -/
theorem valueBlock_twin {u v : Helper.Use} (hnames : u.names = v.names) {x y : Found}
    (h : FoundTwin a b held x y) :
    BlockTwin a b held (Helper.valueBlock u x) (Helper.valueBlock v y) := by
  simp only [Helper.valueBlock, ← hnames]
  rcases u.names with _ | ⟨name, _ | ⟨_, _⟩⟩
  · cases h with
    | missing => exact ⟨rfl, .some .null, .nil, .nil⟩
    | inData keys h => exact ⟨rfl, .none, .nil, .nil⟩
    | value h => exact ⟨rfl, .some h, .nil, .nil⟩
  · cases h with
    | missing => exact ⟨rfl, .some .null, .cons ⟨rfl, .value .null⟩ .nil, .nil⟩
    | inData keys h => exact ⟨rfl, .none, .cons ⟨rfl, .here⟩ .nil, .nil⟩
    | value h => exact ⟨rfl, .some h, .cons ⟨rfl, .value h⟩ .nil, .nil⟩
  · cases h with
    | missing => exact ⟨rfl, .some .null, .nil, .nil⟩
    | inData keys h => exact ⟨rfl, .none, .nil, .nil⟩
    | value h => exact ⟨rfl, .some h, .nil, .nil⟩

/-! ## Helpers

Each helper answers with a value, a statistic, something to be placed, or the scopes for a body.
They are taken in groups by what they look at in their arguments; whether the answer may have a
nonce in it is known from the group. -/

/-- Answers of helpers: a value has nonces only if it is `held`, and scopes only if they are
`inner`. -/
inductive ActTwin (a b : UInt64) (held inner : Bool) : Act → Act → Prop
  | value {x y : Json} : Twin a b held x y → ActTwin a b held inner (.value x) (.value y)
  | statistic (request : Stats.Request) :
    ActTwin a b held inner (.statistic request) (.statistic request)
  | place (helper : String) {x y : Json} : Twin a b true x y →
    ActTwin a b held inner (.place helper x) (.place helper y)
  | body {scopes scopes' : List Scope} : List.Forall₂ (ScopeTwin a b inner) scopes scopes' →
    ActTwin a b held inner (.body scopes) (.body scopes')
  | opposite : ActTwin a b held inner .opposite .opposite

/-- A file as an address is not the key of a pass. -/
theorem embedded_twin (setting : Setting) (file : String) :
    Leads (Twin a b held) (Helper.embedded setting file) (Helper.embedded setting file) := by
  rw [Helper.embedded]
  cases setting.files.read (Files.join setting.static file) with
  | error cause => exact .error _
  | ok content =>
    refine .ok (.string (Deferred.ne_passKey ':' (by decide) ?_))
    simp

/-- Facts about the build do not come from the pass, and no nonce is among them.  The version is a
text of the setting, which is assumed not to be the key of the pass. -/
theorem fact_twin {setting : Setting} (hversion : setting.version ≠ passKey) (kind : String) :
    Leads (Twin a b held) (Helper.fact setting kind) (Helper.fact setting kind) := by
  simp only [Helper.fact]
  split
  · exact .ok (.string hversion)
  split
  · refine .ok (.string (Deferred.ne_passKey '-' (by decide) ?_))
    simp [Calendar.Instant.stamp, Calendar.Date.text]
  split
  · refine .ok (.string (Deferred.ne_passKey '-' (by decide) ?_))
    simp [Calendar.Date.text]
  split
  · refine .ok (.string (Deferred.ne_passKey '/' (by decide) ?_))
    simp
  split
  · exact .ok (.number _)
  · exact .error _

/-- A body chosen by a condition that is the same for both. -/
theorem chosen_twin {inner : Bool} {s t : Scope} (h : ScopeTwin a b inner s t) {c : Prop}
    [Decidable c] : ActTwin a b held inner (if c then .body [s] else .opposite)
      (if c then .body [t] else .opposite) := by
  split
  · exact .body (.cons h .nil)
  · exact .opposite

/-- Whether the value of a helper is one of those in its first argument. -/
def Helper.handsOn : Helper → Bool
  | .lookup => true
  | _ => false

theorem bool_twin {inner : Bool} (c : Bool) :
    ActTwin a b held inner (Helper.bool c) (Helper.bool c) := .value (.bool c)

section

variable {named inner : Bool} {s t : Scope} {u v : Helper.Use}

/-- Helpers that ask something of two arguments. -/
theorem asked_twin (h : UseTwin a b held named u v) (ask : Json → Json → Bool)
    (hask : ∀ {x y x' y' : Json}, Twin a b true x y → Twin a b true x' y' → ask x x' = ask y y') :
    Leads (ActTwin a b more inner)
      (u.arg 0 >>= fun x => u.arg 1 >>= fun x' => .ok (Helper.bool (ask x.json x'.json)))
      (v.arg 0 >>= fun y => v.arg 1 >>= fun y' => .ok (Helper.bool (ask y.json y'.json))) := by
  refine (h.arg 0).bind fun x y hx => (h.arg 1).bind fun x' y' hy => ?_
  rw [hask hx.json hy.json]
  exact .ok (bool_twin _)

/-- Helpers that give what a text names. -/
theorem written_twin (h : UseTwin a b held named u v) {give : String → Except Fault Json}
    (hgive : ∀ text, Leads (Twin a b more) (give text) (give text)) :
    Leads (ActTwin a b more inner)
      (u.text 0 >>= fun text => give text >>= fun value => .ok (.value value))
      (v.text 0 >>= fun text => give text >>= fun value => .ok (.value value)) := by
  refine (h.text 0).bind fun x y hx => ?_
  rw [hx]
  exact (hgive y).bind fun _ _ hvalue => .ok (.value hvalue)

/-- Going through a value without nonces: there is one value, and both go through the same
blocks. -/
theorem each_twin {setting : Setting} (houter : ScopeTwin a b inner s t)
    (h : UseTwin a b false named u v) :
    Leads (ActTwin a b more inner) (Helper.act setting s u .each)
      (Helper.act setting t v .each) := by
  refine h.arg_zero.bind fun x y hfound => ?_
  have hsame : x = y := by
    cases hfound with
    | missing => rfl
    | inData keys _ => rfl
    | value hvalue => rw [hvalue.eq]
  subst hsame
  have hblocks : ∀ block ∈ Helper.itemBlocks v x, BlockTwin a b inner block block :=
    itemBlocks_twin v hfound.json
  rw [itemBlocks_congr h.names]
  generalize Helper.itemBlocks v x = blocks at hblocks ⊢
  cases blocks with
  | nil => exact .ok .opposite
  | cons block rest =>
    refine .ok (.body ?_)
    rw [List.forall₂_map_left_iff, List.forall₂_map_right_iff, List.forall₂_same]
    exact fun block hblock => houter.enter (hblocks block hblock)

/-- A message has a level or not, whatever nonces are in it. -/
theorem log_twin {setting : Setting} (h : UseTwin a b held named u v) :
    Leads (ActTwin a b more inner) (Helper.act setting s u .log) (Helper.act setting t v .log) := by
  have hlevel : (u.namedValue? "level").bind Json.string?
      = (v.namedValue? "level").bind Json.string? := by
    rcases rel_cases (h.namedValue? "level") with ⟨hu, hv⟩ | ⟨_, _, hu, hv, hvalue⟩
    · rw [hu, hv]
    · rw [hu, hv]
      exact hvalue.string?.1
  simp only [Helper.act, hlevel]
  split
  · exact .ok (.body .nil)
  · exact .error _

/-- A comparison needs an operator, which is a text and has no nonces. -/
theorem compare_twin {setting : Setting} (houter : ScopeTwin a b inner s t)
    (h : UseTwin a b held named u v) :
    Leads (ActTwin a b more inner) (Helper.act setting s u .compare)
      (Helper.act setting t v .compare) := by
  have hop := h.argOrNull 1
  simp only [Helper.act]
  generalize u.argOrNull 1 = x at hop ⊢
  generalize v.argOrNull 1 = y at hop ⊢
  cases hop with
  | string =>
    simp only [(h.argOrNull 0).compareValues (h.argOrNull 2)]
    exact .ok (chosen_twin houter)
  | _ => exact .ok (chosen_twin houter)

/-- **Helpers answer alike.**  `each` must not go through nonces; what comes into scope with the
first argument may have them, and so may what is looked up in it. -/
theorem act_twin {setting : Setting} (hversion : setting.version ≠ passKey)
    (hscope : ScopeTwin a b inner s t) (h : UseTwin a b held named u v) (helper : Helper)
    (heach : helper = .each → held = false) :
    Leads (ActTwin a b (helper.handsOn && held) (inner || held))
      (helper.act setting s u) (helper.act setting t v) := by
  -- the blocks that the helper opens may hold a handle where its arguments may
  have houter : ScopeTwin a b (inner || held) s t := hscope.mono (by simp +contextual)
  have hle : held = true → (inner || held) = true := by simp +contextual
  cases helper with
  | choose truth =>
    refine h.arg_zero.bind fun x y hfound => ?_
    dsimp only
    rw [hfound.json.isTruthy, h.any_namedValue? "includeZero" fun _ _ hvalue => by
      cases hvalue <;> rfl]
    exact .ok (chosen_twin houter)
  | each =>
    -- `each` looks into what it goes through, so its arguments hold no handle
    cases heach rfl
    exact each_twin houter h
  | within =>
    refine h.arg_zero.bind fun x y hfound => ?_
    have hblock := valueBlock_twin h.names (hfound.mono hle)
    rw [hfound.json.isTruthy]
    exact .ok (chosen_twin (houter.enter hblock))
  | lookup =>
    refine h.arg_zero.bind fun x y hfound => (h.arg 1).bind fun x' y' hindex => ?_
    exact .ok (.value ((hfound.json.lookedUp hindex.json).mono fun hheld => hheld))
  | verbatim => exact .ok (.body (.cons houter .nil))
  | log => exact log_twin h
  -- twins are compared alike, and the answer holds no handle
  | equal truth => exact asked_twin h (fun x y => x.equal y == truth) fun hx hy => by rw [hx.equal hy]
  | order holds =>
    refine (h.whole 0).bind fun x y hx => (h.whole 1).bind fun x' y' hy => ?_
    rw [hx, hy]
    exact .ok (bool_twin _)
  | all =>
    exact asked_twin h (fun x y => isTruthy false x && isTruthy false y) fun hx hy => by
      rw [hx.isTruthy, hy.isTruthy]
  | any =>
    exact asked_twin h (fun x y => isTruthy false x || isTruthy false y) fun hx hy => by
      rw [hx.isTruthy, hy.isTruthy]
  | negate =>
    refine (h.arg 0).bind fun x y hx => ?_
    rw [hx.json.isTruthy]
    exact .ok (bool_twin _)
  | length =>
    refine (h.arg 0).bind fun x y hx => ?_
    rw [hx.json.sizeOf]
    exact .ok (.value (.number _))
  | compare => exact compare_twin houter h
  | embed => exact written_twin h (embedded_twin setting)
  | buildInfo => exact written_twin h (fact_twin hversion)
  | statistic =>
    refine (h.text 0).bind fun x y hx => (h.text 1).bind fun x' y' hy => ?_
    rw [hx, hy]
    exact .ok (.statistic _)
  | place =>
    refine .ok ?_
    rw [h.name]
    exact .place v.name (h.argOrNull 0)

end

/-- The name of the helper that goes through a value. -/
def eachName : String := "each"

/-- The name of the helper that takes a value out of another. -/
def lookupName : String := "lookup"

theorem eq_eachName {name : String} (h : Helper.ofName? name = some .each) : name = eachName := by
  obtain ⟨before, after, heq, -⟩ := List.lookup_eq_some_iff.1 h
  have hmem : (name, Helper.each) ∈ before ++ (name, .each) :: after := by simp
  rw [← heq] at hmem
  simpa [eachName] using hmem

theorem eq_lookupName {name : String} (h : Helper.ofName? name = some .lookup) :
    name = lookupName := by
  obtain ⟨before, after, heq, -⟩ := List.lookup_eq_some_iff.1 h
  have hmem : (name, Helper.lookup) ∈ before ++ (name, .lookup) :: after := by simp
  rw [← heq] at hmem
  simpa [lookupName] using hmem

theorem ActTwin.mono {inner : Bool} (hle : held = true → more = true) {x y : Act}
    (h : ActTwin a b held inner x y) : ActTwin a b more inner x y := by
  cases h with
  | value h => exact .value (h.mono hle)
  | statistic request => exact .statistic request
  | place helper h => exact .place helper h
  | body h => exact .body h
  | opposite => exact .opposite

/-- **A helper that is called by name answers alike.** -/
theorem answer_twin {setting : Setting} (hversion : setting.version ≠ passKey)
    {named inner : Bool} {s t : Scope} (hscope : ScopeTwin a b inner s t) {u v : Helper.Use}
    (h : UseTwin a b held named u v) (heach : u.name = eachName → held = false) :
    Leads (ActTwin a b (u.name == lookupName && held) (inner || held)) (answer setting s u)
      (answer setting t v) := by
  rw [answer, answer, ← h.name]
  cases hname : Helper.ofName? u.name with
  | none => exact .error _
  | some helper =>
    have hfree : helper = .each → held = false := by
      rintro rfl
      exact heach (eq_eachName hname)
    have hle : (helper.handsOn && held) = true → (u.name == lookupName && held) = true := by
      cases helper with
      | lookup => simp [eq_lookupName hname]
      | _ => simp [Helper.handsOn]
    exact (act_twin hversion hscope h helper hfree).mono fun _ _ hact => hact.mono hle

/-! ## Partials

Paths inside of a partial start from its first argument, if that lies in the data, and otherwise
from where they started outside.  Arguments by name are added as fields, and these may be handles,
so the scopes inside may be open. -/

/-- Fields set one after the other stay twins. -/
theorem setAll_twin {xs ys : List (String × Found)}
    (h : List.Forall₂ (Named (FoundTwin a b held)) xs ys)
    (hfields : ∀ entry ∈ xs, entry.1 ≠ passKey) {fields fields' : Fields Json}
    (hbase : List.Forall₂ (FieldTwin a b held) fields fields') :
    List.Forall₂ (FieldTwin a b held)
      (xs.foldl (fun fields (name, found) => Fields.insert name found.json fields) fields)
      (ys.foldl (fun fields (name, found) => Fields.insert name found.json fields) fields') := by
  induction h generalizing fields fields' with
  | nil => exact hbase
  | @cons x y _ _ hfirst _ ih =>
    obtain ⟨name, x⟩ := x
    obtain ⟨_, y⟩ := y
    obtain ⟨rfl, hfound⟩ := hfirst
    have hname : name ≠ passKey := hfields _ List.mem_cons_self
    exact ih (fun entry hentry => hfields entry (List.mem_cons_of_mem _ hentry))
      (FieldTwin.insert hname hfound.json hbase)

/-- The blocks of a partial, before arguments by name are added to the value of the first. -/
def startBlocks (scope : Scope) (u : Helper.Use) : List Block :=
  match u.args.head? with
  | some (.inData keys _) => [{ keys := keys }]
  | _ => scope.blocks

/-- The scope of a partial with the given blocks. -/
def partialWith (scope : Scope) (u : Helper.Use) (indent : Option String)
    (handed : Option (List Element)) (blocks : List Block) : Scope :=
  { scope with
    blocks
    depth := if u.name == bodyName then scope.depth + 1 else scope.depth - 1
    indent
    bodies := handed.toList ++ scope.bodies }

/-- The fields of a value, if it is an object. -/
def fieldsOf : Json → Fields Json
  | .object fields => fields
  | _ => []

/-- A block with the arguments by name added to what its paths start from. -/
def withNamed (u : Helper.Use) (current : Json) (block : Block) : Block :=
  { block with
    value := some (.object (u.named.foldl
      (fun fields (name, found) => Fields.insert name found.json fields) (fieldsOf current))) }

/-- The scope of a partial: the blocks as they are if the call names no values, and one block with
these values otherwise. -/
theorem partialScope_eq (scope : Scope) (u : Helper.Use) (indent : Option String)
    (handed : Option (List Element)) : partialScope scope u indent handed
      = if u.named.isEmpty then .ok (partialWith scope u indent handed (startBlocks scope u))
        else (do
          let block := ((startBlocks scope u).head?).getD {}
          let current ← Scope.relative { scope with blocks := [block] } 0 []
          .ok (partialWith scope u indent handed [withNamed u current.json block])) := by
  rw [partialScope]
  cases u.named.isEmpty with
  | true => rfl
  | false => rfl

theorem fieldsOf_twin {x y : Json} (h : Twin a b held x y) :
    List.Forall₂ (FieldTwin a b held) (fieldsOf x) (fieldsOf y) := by
  cases h with
  | object h => exact h
  | _ => exact .nil

/-- A partial starts at the data that its argument stands for, or in the blocks of its caller. -/
theorem startBlocks_twin {named inner : Bool} {s t : Scope} (hscope : ScopeTwin a b inner s t)
    {u v : Helper.Use} (h : UseTwin a b held named u v) :
    List.Forall₂ (BlockTwin a b inner) (startBlocks s u) (startBlocks t v) := by
  have hargs := h.args
  rw [startBlocks, startBlocks]
  generalize u.args = xs at hargs ⊢
  generalize v.args = ys at hargs ⊢
  cases hargs with
  | nil => exact hscope.blocks
  | cons hfirst _ =>
    cases hfirst with
    | inData keys _ => exact .cons ⟨rfl, .none, .nil, .nil⟩ .nil
    | _ => exact hscope.blocks

/-- **The scopes inside a partial are twins.** -/
theorem partialScope_twin {named inner : Bool} {s t : Scope} (hscope : ScopeTwin a b inner s t)
    {u v : Helper.Use} (h : UseTwin a b held named u v) (indent : Option String)
    (handed : Option (List Element)) :
    Leads (ScopeTwin a b (inner || named)) (partialScope s u indent handed)
      (partialScope t v indent handed) := by
  have houter : ScopeTwin a b (inner || named) s t := hscope.mono (by simp +contextual)
  have hmore : named = true → (inner || named) = true := by simp +contextual
  have hstart := startBlocks_twin houter h
  have hwith {xs ys : List Block} (hblocks : List.Forall₂ (BlockTwin a b (inner || named)) xs ys) :
      ScopeTwin a b (inner || named) (partialWith s u indent handed xs)
        (partialWith t v indent handed ys) :=
    ⟨hscope.data, hscope.free, hblocks, by simp only [partialWith, hscope.bodies],
      by simp only [partialWith, h.name, hscope.depth], rfl⟩
  have hempty : u.named.isEmpty = v.named.isEmpty := by
    have hnamed := h.named
    generalize u.named = xs at hnamed ⊢
    generalize v.named = ys at hnamed ⊢
    cases hnamed <;> rfl
  rw [partialScope_eq, partialScope_eq, hempty]
  -- without named values the blocks stay as they are
  split
  · exact .ok (hwith hstart)
  · have hblock : BlockTwin a b (inner || named) ((startBlocks s u).head?.getD {})
        ((startBlocks t v).head?.getD {}) := by
      generalize startBlocks s u = xs at hstart ⊢
      generalize startBlocks t v = ys at hstart ⊢
      cases hstart with
      | nil => exact ⟨rfl, .none, .nil, .nil⟩
      | cons hblock _ => exact hblock
    -- with named values, the first block is replaced by its fields and theirs
    have hinner : ScopeTwin a b (inner || named)
        { s with blocks := [(startBlocks s u).head?.getD {}] }
        { t with blocks := [(startBlocks t v).head?.getD {}] } :=
      { houter with blocks := .cons hblock .nil }
    have hkeys : ∀ key ∈ ([] : List String), key ≠ passKey := by simp
    refine (hinner.relative 0 hkeys).bind fun x y hcurrent => ?_
    have hnamed : List.Forall₂ (Named (FoundTwin a b (inner || named))) u.named v.named :=
      h.named.imp fun _ _ hname => ⟨hname.1, hname.2.mono hmore⟩
    refine .ok (hwith (.cons { hblock with value := .some (.object ?_) } .nil))
    exact setAll_twin hnamed h.fields (fieldsOf_twin hcurrent.json)

end Template
end Frontispiece
