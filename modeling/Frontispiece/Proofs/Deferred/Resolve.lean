import Frontispiece.Proofs.Deferred.Output

/-!
# Resolving a pass

`Pass.resolve` awaits the values that were placed, each once and in the order of their tickets, and
puts them in their places.  It runs in whatever monad awaiting needs; here the values answer
without delay, so that what it comes to can be said by a plain function, `settled`.

## What is here

* `mem_placed`, `placed_sorted` — the values that are awaited are exactly those that stand in the
  output, and no ticket comes twice.
* `resolve_run` — awaiting in a state monad whose answers do not depend on the state gives
  `settled`.  `logged` is the case that counts: its state lists the values that were awaited.
* `settled_of_answers`, `settled_of_fault` — the two ways in which resolving ends.
* `run_resolve` — all of this for a run of calls on a new pass.

Resolving has three stages: the tickets in the output are sorted, their values are awaited one by
one, and the answers are put in their places.  The lemmas take the stages one after the other.
Awaiting is a computation with a state of its own, about which nothing is assumed but that answers
do not depend on it; for that it is enough that an invariant (`Fair`) is kept.
-/

set_option autoImplicit false

namespace Frontispiece
namespace Deferred
namespace Pass

open Template (Fault)

variable {α σ : Type}

/-! ## The values that are awaited

A ticket may be placed many times and is awaited once.  The list of those that are is sorted and has
no repetition, which makes the order of awaiting that of the tickets. -/

/-- A ticket is placed exactly if its value is among the items. -/
theorem isPlaced_iff (p : Pass α) (ticket : Nat) :
    p.isPlaced ticket = true ↔ Item.value ticket ∈ p.items := by
  rw [isPlaced, items, List.any_eq_true, List.mem_flatMap]
  refine exists_congr fun segment => and_congr_right fun _ => ?_
  cases segment with
  | text bytes => simp [Segment.isFor, Segment.items, textItems]
  | pending other =>
    rw [Segment.isFor, Segment.items, beq_iff_eq, List.mem_singleton, Item.value.injEq]
    exact eq_comm

/-- A value is awaited when its ticket stands in the output. -/
theorem mem_placed {p : Pass α} {ticket : Nat} {value : α} :
    (ticket, value) ∈ p.placed ↔ p.pending[ticket]? = some value ∧ Item.value ticket ∈ p.items := by
  simp [placed, List.mk_mem_zipIdx_iff_getElem?, isPlaced_iff]

/-- **Values are awaited in the order of their tickets, and none is awaited twice.** -/
theorem placed_sorted (p : Pass α) : (p.placed.map Prod.fst).Pairwise (· < ·) := by
  have hsub : ((p.pending.zipIdx.filter fun x => p.isPlaced x.2).map Prod.snd).Sublist
      (List.range' 0 p.pending.length) := by
    rw [← List.zipIdx_map_snd 0 p.pending]
    exact List.filter_sublist.map Prod.snd
  rw [placed, List.map_map]
  exact (List.pairwise_lt_range' 1).sublist hsub

/-! ## Awaiting

Awaiting asks a source, and the source has a state.  If its answers do not depend on the state, then
awaiting a list is collecting the answers, up to the first that is a fault. -/

/-- Answers to values in order, up to the first fault. -/
def collect (answer : α → Except Fault Json) :
    List (Nat × α) → Except Fault (List (Nat × Json))
  | [] => .ok []
  | (ticket, value) :: rest => do
    let json ← answer value
    let others ← collect answer rest
    .ok ((ticket, json) :: others)

/-- Bytes as a text. -/
def decoded (bytes : ByteArray) : Except Fault String :=
  match String.fromUTF8? bytes with
  | some text => .ok text
  | none => .error .encoding

/-- What a pass resolves to when the answers to its values are known. -/
def settled (answer : α → Except Fault Json) (p : Pass α) : Except Fault String :=
  match collect answer p.placed with
  | .error fault => .error fault
  | .ok resolved =>
    match p.joinSegments resolved p.segments with
    | .error fault => .error fault
    | .ok bytes => decoded bytes

/-- Awaits values that keep to their answers in every state that `Fair` holds of. -/
def Answers (Fair : σ → Prop) (answer : α → Except Fault Json)
    (await : α → StateM σ (Except Fault Json)) : Prop :=
  ∀ value s, Fair s → ((await value).run s).1 = answer value ∧ Fair ((await value).run s).2

theorem run_bind {β γ : Type} (x : StateM σ β) (f : β → StateM σ γ) (s : σ) :
    (x >>= f).run s = (f (x.run s).1).run (x.run s).2 := rfl

/-- Values that are awaited one after the other are collected up to the first fault. -/
theorem awaitAll_run {Fair : σ → Prop} {answer : α → Except Fault Json}
    {await : α → StateM σ (Except Fault Json)} (h : Answers Fair answer await)
    (values : List (Nat × α)) {s : σ} (hs : Fair s) :
    ((awaitAll await values).run s).1 = collect answer values
      ∧ Fair ((awaitAll await values).run s).2 := by
  induction values generalizing s with
  | nil => exact ⟨rfl, hs⟩
  | cons entry rest ih =>
    obtain ⟨ticket, value⟩ := entry
    obtain ⟨hanswer, hfair⟩ := h value s hs
    rw [awaitAll, collect, run_bind, hanswer]
    cases answer value with
    | error fault => exact ⟨rfl, hfair⟩
    | ok json =>
      simp only [run_bind]
      obtain ⟨hcollect, hfair'⟩ := ih hfair
      rw [hcollect]
      cases collect answer rest with
      | error fault => exact ⟨rfl, hfair'⟩
      | ok others => exact ⟨rfl, hfair'⟩

/-- **Resolving gives what the answers make of the pass**, whatever else awaiting does. -/
theorem resolve_run {Fair : σ → Prop} {answer : α → Except Fault Json}
    {await : α → StateM σ (Except Fault Json)} (h : Answers Fair answer await) (p : Pass α)
    {s : σ} (hs : Fair s) : ((p.resolve await).run s).1 = settled answer p := by
  rw [resolve, settled, run_bind, (awaitAll_run h p.placed hs).1]
  cases collect answer p.placed with
  | error fault => rfl
  | ok resolved =>
    dsimp only
    cases p.joinSegments resolved p.segments with
    | error fault => rfl
    | ok bytes =>
      simp only [decoded]
      cases String.fromUTF8? bytes <;> rfl

/-! ## What the answers make of a pass

With answers in hand, resolving a pass is spelling its output with each ticket replaced.  A fault
stops it only if its ticket was placed. -/

/-- The bytes of an item, with the values of tickets put in. -/
def itemBytes (json : Nat → Json) : Item → List UInt8
  | .byte byte => [byte]
  | .value ticket => (valueText (json ticket)).toUTF8.data.toList

/-- The output with values in their places. -/
def spell (json : Nat → Json) (items : List Item) : ByteArray :=
  (items.flatMap (itemBytes json)).toByteArray

theorem spell_append (json : Nat → Json) (a b : List Item) :
    spell json (a ++ b) = spell json a ++ spell json b := by
  simp [spell]

theorem spell_text (json : Nat → Json) (bytes : ByteArray) :
    spell json (textItems bytes) = bytes := by
  have h : (textItems bytes).flatMap (itemBytes json) = bytes.data.toList := by
    simp [textItems, itemBytes, List.flatMap_map]
  ext1
  rw [spell, h, List.data_toByteArray, Array.toArray_toList]

theorem spell_value (json : Nat → Json) (ticket : Nat) :
    spell json [.value ticket] = (valueText (json ticket)).toUTF8 := by
  ext1
  simp [spell, itemBytes]

/-- Only the values of tickets that are placed matter. -/
theorem spell_congr {json json' : Nat → Json} {items : List Item}
    (h : ∀ ticket, .value ticket ∈ items → json ticket = json' ticket) :
    spell json items = spell json' items := by
  have hbytes : ∀ item ∈ items, itemBytes json item = itemBytes json' item := by
    intro item hitem
    cases item with
    | byte byte => rfl
    | value ticket => rw [itemBytes, itemBytes, h ticket hitem]
  rw [spell, spell, List.flatMap_congr hbytes]

/-- Joining puts the resolved values in their places. -/
theorem joinSegments_eq (p : Pass α) (json : Nat → Json) {resolved : List (Nat × Json)} :
    ∀ segments : List Segment, (∀ ticket, Item.value ticket ∈ segments.flatMap Segment.items →
        resolved.lookup ticket = some (json ticket)) →
      p.joinSegments resolved segments = .ok (spell json (segments.flatMap Segment.items))
  | [], _ => rfl
  | .text bytes :: rest, h => by
    have ih := joinSegments_eq p json rest fun ticket ht =>
      h ticket (List.mem_flatMap.2 (by simpa [List.mem_flatMap] using Or.inr ht))
    rw [joinSegments, ih, List.flatMap_cons, spell_append, Segment.items, spell_text]
    rfl
  | .pending ticket :: rest, h => by
    have ih := joinSegments_eq p json rest fun other ht =>
      h other (List.mem_flatMap.2 (by simpa [List.mem_flatMap] using Or.inr ht))
    rw [joinSegments, h ticket (by simp [Segment.items]), ih, List.flatMap_cons, spell_append,
      Segment.items, spell_value]
    rfl

/-- Each ticket has the answer that was collected for it. -/
theorem lookup_collected {json : Nat → Json} {ticket : Nat} :
    ∀ {values : List (Nat × α)}, ticket ∈ values.map Prod.fst →
      (values.map fun entry => (entry.1, json entry.1)).lookup ticket = some (json ticket)
  | (first, _) :: rest, h => by
    rw [List.map_cons, List.lookup_cons]
    by_cases heq : ticket = first
    · subst heq
      simp
    · have hmem : ticket ∈ rest.map Prod.fst := by simpa [heq] using h
      have hne : (ticket == first) = false := by simpa using heq
      rw [hne]
      exact lookup_collected hmem

/-- When all values answer, their answers are collected under their tickets. -/
theorem collect_of_answers {answer : α → Except Fault Json} {json : Nat → Json} :
    ∀ {values : List (Nat × α)}, (∀ entry ∈ values, answer entry.2 = .ok (json entry.1)) →
      collect answer values = .ok (values.map fun entry => (entry.1, json entry.1))
  | [], _ => rfl
  | (ticket, value) :: rest, h => by
    have hvalue : answer value = .ok (json ticket) := h _ List.mem_cons_self
    rw [collect, hvalue, collect_of_answers fun entry he => h entry (List.mem_cons_of_mem _ he)]
    rfl

/-- The fault of the smallest ticket that has one is the one that stops the collection. -/
theorem collect_of_fault {answer : α → Except Fault Json} {ticket : Nat} {value : α}
    {fault : Fault} (hfault : answer value = .error fault) :
    ∀ {values : List (Nat × α)}, (values.map Prod.fst).Pairwise (· < ·) →
      (ticket, value) ∈ values →
      (∀ entry ∈ values, entry.1 < ticket → ∃ json, answer entry.2 = .ok json) →
      collect answer values = .error fault
  | (first, other) :: rest, hsorted, hmem, hbefore => by
    rw [List.map_cons, List.pairwise_cons] at hsorted
    rcases List.mem_cons.1 hmem with heq | hmem
    · cases heq
      rw [collect, hfault]
      rfl
    · have hlt : first < ticket := hsorted.1 ticket (List.mem_map.2 ⟨_, hmem, rfl⟩)
      obtain ⟨json, hjson⟩ := hbefore _ List.mem_cons_self hlt
      have ih := collect_of_fault hfault hsorted.2 hmem fun entry he =>
        hbefore entry (List.mem_cons_of_mem _ he)
      rw [collect, hjson, ih]
      rfl

/-- A fault that stops the collection is one of a value's own. -/
theorem fault_of_collect {answer : α → Except Fault Json} {fault : Fault} :
    ∀ {values : List (Nat × α)}, collect answer values = .error fault →
      ∃ entry ∈ values, answer entry.2 = .error fault
  | [], h => by simp [collect] at h
  | (ticket, value) :: rest, h => by
    cases hvalue : answer value with
    | error other =>
      rw [collect, hvalue] at h
      cases h
      exact ⟨_, List.mem_cons_self, hvalue⟩
    | ok json =>
      cases hrest : collect answer rest with
      | error other =>
        rw [collect, hvalue, hrest] at h
        cases h
        obtain ⟨entry, hmem, hentry⟩ := fault_of_collect hrest
        exact ⟨entry, List.mem_cons_of_mem _ hmem, hentry⟩
      | ok others =>
        rw [collect, hvalue, hrest] at h
        cases h

/-- If all of them have been collected, each has an answer. -/
theorem answers_of_collect {answer : α → Except Fault Json} :
    ∀ {values : List (Nat × α)} {resolved : List (Nat × Json)},
      collect answer values = .ok resolved → ∀ entry ∈ values, ∃ json, answer entry.2 = .ok json
  | (ticket, value) :: rest, resolved, h, entry, he => by
    cases hvalue : answer value with
    | error other =>
      rw [collect, hvalue] at h
      cases h
    | ok json =>
      cases hrest : collect answer rest with
      | error other =>
        rw [collect, hvalue, hrest] at h
        cases h
      | ok others =>
        rcases List.mem_cons.1 he with rfl | he
        · exact ⟨json, hvalue⟩
        · exact answers_of_collect hrest entry he

/-- The answer to a ticket of a pass, if the ticket was handed out. -/
def answerOf (answer : α → Except Fault Json) (p : Pass α) (ticket : Nat) :
    Option (Except Fault Json) :=
  (p.pending[ticket]?).map answer

/-- A call changes no answer to a ticket that was handed out before. -/
theorem answerOf_step {answer : α → Except Fault Json} {p : Pass α} {ticket : Nat}
    {result : Except Fault Json} (h : p.answerOf answer ticket = some result) (s : Step α) :
    (p.step s).answerOf answer ticket = some result := by
  obtain ⟨value, hget, hvalue⟩ := Option.map_eq_some_iff.1 h
  have hlt : ticket < p.pending.length := (List.getElem?_eq_some_iff.1 hget).1
  rw [answerOf, step_pending, List.getElem?_append_left hlt, hget, Option.map_some, hvalue]

/-- The answer to a ticket that is handed out now. -/
theorem answerOf_enqueue (answer : α → Except Fault Json) (p : Pass α) (value : α) :
    (p.step (.enqueue value)).answerOf answer p.pending.length = some (answer value) := by
  simp [answerOf]

theorem lt_of_answerOf {answer : α → Except Fault Json} {p : Pass α} {ticket : Nat}
    {result : Except Fault Json} (h : p.answerOf answer ticket = some result) :
    ticket < p.pending.length := by
  obtain ⟨value, hget, -⟩ := Option.map_eq_some_iff.1 h
  exact (List.getElem?_eq_some_iff.1 hget).1

theorem answerOf_placed (answer : α → Except Fault Json) {p : Pass α} {entry : Nat × α}
    (h : entry ∈ p.placed) :
    Item.value entry.1 ∈ p.items ∧ p.answerOf answer entry.1 = some (answer entry.2) := by
  obtain ⟨hget, hmem⟩ := mem_placed.1 h
  exact ⟨hmem, by rw [answerOf, hget, Option.map_some]⟩

theorem exists_placed {answer : α → Except Fault Json} {p : Pass α} {ticket : Nat}
    {result : Except Fault Json} (hmem : Item.value ticket ∈ p.items)
    (h : p.answerOf answer ticket = some result) :
    ∃ value, (ticket, value) ∈ p.placed ∧ answer value = result := by
  obtain ⟨value, hget, hvalue⟩ := Option.map_eq_some_iff.1 h
  exact ⟨value, mem_placed.2 ⟨hget, hmem⟩, hvalue⟩

/-- **When every placed value answers, the pass is its output with the values put in.** -/
theorem settled_of_answers {answer : α → Except Fault Json} {p : Pass α} {json : Nat → Json}
    (h : ∀ ticket, Item.value ticket ∈ p.items →
      p.answerOf answer ticket = some (.ok (json ticket))) :
    settled answer p = decoded (spell json p.items) := by
  have hcollect : collect answer p.placed
      = .ok (p.placed.map fun entry => (entry.1, json entry.1)) := by
    refine collect_of_answers fun entry he => ?_
    obtain ⟨hmem, hanswer⟩ := answerOf_placed answer he
    exact Option.some.inj (hanswer.symm.trans (h _ hmem))
  have hjoin := joinSegments_eq p json p.segments fun ticket ht => by
    obtain ⟨value, hplaced, -⟩ := exists_placed ht (h ticket ht)
    exact lookup_collected (List.mem_map.2 ⟨_, hplaced, rfl⟩)
  rw [settled, hcollect]
  dsimp only
  rw [hjoin, items]

/-- **When placed values fail, the pass fails like the one of them with the smallest ticket.** -/
theorem settled_of_fault {answer : α → Except Fault Json} {p : Pass α} {ticket : Nat}
    {fault : Fault} (hmem : Item.value ticket ∈ p.items)
    (hfault : p.answerOf answer ticket = some (.error fault))
    (hbefore : ∀ other < ticket, Item.value other ∈ p.items →
      ∃ json, p.answerOf answer other = some (.ok json)) :
    settled answer p = .error fault := by
  obtain ⟨value, hplaced, hvalue⟩ := exists_placed hmem hfault
  have hcollect := collect_of_fault hvalue p.placed_sorted hplaced fun entry he hlt => by
    obtain ⟨hmem', hanswer⟩ := answerOf_placed answer he
    obtain ⟨json, hjson⟩ := hbefore _ hlt hmem'
    exact ⟨json, Option.some.inj (hanswer.symm.trans hjson)⟩
  rw [settled, hcollect]

/-- A fault of the whole is a fault of a placed value, or bytes that are no text: a place without
a value is never met. -/
theorem fault_of_settled {answer : α → Except Fault Json} {p : Pass α} {fault : Fault}
    (h : settled answer p = .error fault) (hissued : ∀ ticket, Item.value ticket ∈ p.items →
      ticket < p.pending.length) :
    fault = .encoding ∨ ∃ ticket, Item.value ticket ∈ p.items
      ∧ p.answerOf answer ticket = some (.error fault) := by
  cases hcollect : collect answer p.placed with
  | error other =>
    rw [settled, hcollect] at h
    cases h
    obtain ⟨entry, he, hentry⟩ := fault_of_collect hcollect
    obtain ⟨hmem, hanswer⟩ := answerOf_placed answer he
    exact .inr ⟨entry.1, hmem, by rw [hanswer, hentry]⟩
  | ok resolved =>
    have hjson : ∀ ticket, ∃ json, Item.value ticket ∈ p.items →
        p.answerOf answer ticket = some (.ok json) := by
      intro ticket
      by_cases hmem : Item.value ticket ∈ p.items
      · have hget := List.getElem?_eq_getElem (hissued ticket hmem)
        obtain ⟨json, hok⟩ := answers_of_collect hcollect _ (mem_placed.2 ⟨hget, hmem⟩)
        exact ⟨json, fun _ => by rw [answerOf, hget, Option.map_some, hok]⟩
      · exact ⟨.null, fun h => absurd h hmem⟩
    choose json hjson using hjson
    rw [settled_of_answers hjson, decoded] at h
    split at h
    · cases h
    · cases h
      exact .inl rfl

/-! ## Counting what is awaited

A source that writes down what it is asked shows that each ticket is asked for once and in order,
and none that was not placed. -/

/-- Awaits a value and notes that it did. -/
def logged (answer : α → Except Fault Json) (value : α) :
    StateM (List α) (Except Fault Json) := do
  modify (· ++ [value])
  pure (answer value)

theorem logged_answers (answer : α → Except Fault Json) :
    Answers (fun _ => True) answer (logged answer) :=
  fun _ _ _ => ⟨rfl, trivial⟩

/-- Values are awaited from the first on, and all of them unless one fails. -/
theorem awaitAll_logged (answer : α → Except Fault Json) (values : List (Nat × α))
    (log : List α) : ∃ n,
      ((awaitAll (logged answer) values).run log).2 = log ++ (values.take n).map Prod.snd
        ∧ ∀ resolved, collect answer values = .ok resolved → values.take n = values := by
  induction values generalizing log with
  | nil => exact ⟨0, (List.append_nil log).symm, fun _ _ => rfl⟩
  | cons entry rest ih =>
    obtain ⟨ticket, value⟩ := entry
    rw [awaitAll, run_bind]
    have hlog : (logged answer value).run log = (answer value, log ++ [value]) := rfl
    rw [hlog]
    cases hvalue : answer value with
    | error fault =>
      refine ⟨1, rfl, fun resolved h => ?_⟩
      rw [collect, hvalue] at h
      cases h
    | ok json =>
      obtain ⟨n, hn, hall⟩ := ih (log ++ [value])
      have hcollect : ((awaitAll (logged answer) rest).run (log ++ [value])).1
          = collect answer rest := (awaitAll_run (logged_answers answer) rest trivial).1
      dsimp only
      rw [run_bind, hcollect]
      refine ⟨n + 1, ?_, fun resolved h => ?_⟩
      · have happend : log ++ value :: (rest.take n).map Prod.snd
            = log ++ [value] ++ (rest.take n).map Prod.snd := List.append_cons ..
        rw [List.take_succ_cons, List.map_cons]
        refine Eq.trans ?_ (hn.trans happend.symm)
        cases collect answer rest <;> rfl
      · cases hrest : collect answer rest with
        | error fault =>
          rw [collect, hvalue, hrest] at h
          cases h
        | ok others => rw [List.take_succ_cons, hall others hrest]

/-- The values that resolving awaits: those of the first tickets that stand in the output, and of
all of them when it succeeds. -/
theorem resolve_logged (answer : α → Except Fault Json) (p : Pass α) : ∃ tickets : List Nat,
    tickets.Pairwise (· < ·)
      ∧ (∀ ticket ∈ tickets, Item.value ticket ∈ p.items)
      ∧ ((p.resolve (logged answer)).run []).2.map some = tickets.map (p.pending[·]?)
      ∧ ∀ text, settled answer p = .ok text →
          ∀ ticket, Item.value ticket ∈ p.items → ticket < p.pending.length → ticket ∈ tickets := by
  obtain ⟨n, hn, hall⟩ := awaitAll_logged answer p.placed []
  have hresolve : ((p.resolve (logged answer)).run []).2
      = ((awaitAll (logged answer) p.placed).run []).2 := by
    rw [resolve, run_bind]
    cases ((awaitAll (logged answer) p.placed).run []).1 with
    | error fault => rfl
    | ok resolved =>
      dsimp only
      cases p.joinSegments resolved p.segments with
      | error fault => rfl
      | ok bytes =>
        dsimp only
        cases String.fromUTF8? bytes <;> rfl
  have hsub : (p.placed.take n).Sublist p.placed := List.take_sublist n p.placed
  refine ⟨(p.placed.take n).map Prod.fst, p.placed_sorted.sublist (hsub.map _), ?_, ?_, ?_⟩
  · intro ticket ht
    obtain ⟨entry, he, rfl⟩ := List.mem_map.1 ht
    exact (mem_placed.1 (hsub.subset he)).2
  · rw [hresolve, hn, List.nil_append, List.map_map, List.map_map]
    refine List.map_congr_left fun entry he => ?_
    exact (mem_placed.1 (hsub.subset he)).1.symm
  · intro text htext ticket hmem hlt
    cases hcollect : collect answer p.placed with
    | error fault =>
      rw [settled, hcollect] at htext
      cases htext
    | ok resolved =>
      rw [hall resolved hcollect]
      exact List.mem_map.2 ⟨_, mem_placed.2 ⟨List.getElem?_eq_getElem hlt, hmem⟩, rfl⟩

/-- Bytes are read as the text that they are the form of. -/
theorem decoded_eq_ok_iff {bytes : ByteArray} {text : String} :
    decoded bytes = .ok text ↔ bytes = text.toUTF8 := by
  rw [decoded, String.fromUTF8?]
  by_cases hvalid : bytes.IsValidUTF8
  · rw [dif_pos hvalid]
    constructor
    · intro h
      cases h
      rfl
    · rintro rfl
      rfl
  · rw [dif_neg hvalid]
    constructor
    · intro h
      cases h
    · rintro rfl
      exact absurd text.isValidUTF8 hvalid

/-! ## Runs of calls

What the calls of a run placed is known from the calls, and so is what the pass resolves to. -/

/-- **A pass keeps what was written to it, and resolves to it.**

For any run of calls on a new pass, with values that answer at once:

* its segments hold the texts and the accepted placements in the order of the calls, and no two
  texts side by side;
* a ticket that was not handed out is refused, and nothing changes;
* when all placed values answer, it resolves to the bytes of its output with the values put in,
  provided they are a text;
* when placed values fail, it fails like the one with the smallest ticket, wherever that is placed;
  and apart from bytes that are no text, it fails in no other way;
* values are awaited in the order of their tickets, none twice and none that was not placed, and
  all that were placed when it succeeds. -/
theorem run_resolve (nonce : UInt64) (steps : List (Step α)) (answer : α → Except Fault Json) :
    let p := (new nonce : Pass α).run steps
    let items := Step.written 0 steps
    let values := Step.values steps
    let result := ((p.resolve (logged answer)).run []).1
    let awaited := ((p.resolve (logged answer)).run []).2
    (Merged p.segments ∧ p.items = items) ∧
    (∀ ticket, values.length ≤ ticket →
      (∃ fault, p.place ticket = .error fault) ∧ p.step (.place ticket) = p) ∧
    (∀ ticket, .value ticket ∈ items → ticket < values.length) ∧
    (∀ json : Nat → Json,
      (∀ ticket, .value ticket ∈ items → (values[ticket]?).map answer = some (.ok (json ticket))) →
      ∀ text : String, result = .ok text ↔ spell json items = text.toUTF8) ∧
    (∀ ticket fault, .value ticket ∈ items → (values[ticket]?).map answer = some (.error fault) →
      (∀ other < ticket, .value other ∈ items →
        ∃ json, (values[other]?).map answer = some (.ok json)) →
      result = .error fault) ∧
    (∀ fault, result = .error fault → fault = .encoding ∨
      ∃ ticket, .value ticket ∈ items ∧ (values[ticket]?).map answer = some (.error fault)) ∧
    ∃ tickets : List Nat, tickets.Pairwise (· < ·) ∧
      (∀ ticket ∈ tickets, .value ticket ∈ items) ∧
      awaited.map some = tickets.map (values[·]?) ∧
      ∀ text, result = .ok text → ∀ ticket, .value ticket ∈ items → ticket ∈ tickets := by
  intro p items values result awaited
  -- the pass after the steps, by what the steps have written and deferred
  have hitems : p.items = items := run_items _ _
  have hpending : p.pending = values := run_pending _ _
  have hissued : ∀ ticket, Item.value ticket ∈ items → ticket < values.length := by
    intro ticket ht
    simpa using written_issued steps ht
  -- the answers are a function of the values, so the loop gives what the items say
  have hresult : result = settled answer p := resolve_run (logged_answers answer) p trivial
  have hnew : Merged (new nonce : Pass α).segments := List.isChain_nil
  have hmerged : Merged p.segments := run_merged hnew steps
  refine ⟨⟨hmerged, hitems⟩, fun ticket ht => ?_, hissued,
    fun json hjson text => ?_, fun ticket fault hmem hfault hbefore => ?_, fun fault h => ?_, ?_⟩
  · have hlt : ¬ticket < p.pending.length := by rw [hpending]; omega
    exact ⟨⟨_, by rw [place, if_neg hlt]⟩, by rw [step_place, if_neg hlt]⟩
  · rw [← hitems, ← hpending] at hjson
    rw [hresult, settled_of_answers hjson, hitems, decoded_eq_ok_iff]
  · rw [← hitems] at hmem hbefore
    rw [← hpending] at hfault hbefore
    rw [hresult, settled_of_fault hmem hfault hbefore]
  · rw [← hitems] at hissued ⊢
    rw [← hpending] at hissued ⊢
    exact fault_of_settled (hresult ▸ h) hissued
  · obtain ⟨tickets, hsorted, hmem, hawaited, hall⟩ := resolve_logged answer p
    rw [hitems] at hmem hall
    rw [hpending] at hawaited hall
    exact ⟨tickets, hsorted, hmem, hawaited, fun text htext ticket ht =>
      hall text (hresult ▸ htext) ticket ht (hissued ticket ht)⟩

end Pass
end Deferred
end Frontispiece
