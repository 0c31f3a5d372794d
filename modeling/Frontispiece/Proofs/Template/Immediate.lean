import Frontispiece.Proofs.Deferred.Handle
import Frontispiece.Proofs.Deferred.Resolve
import Frontispiece.Proofs.Stats.Provider
import Frontispiece.Proofs.Template.Simulation
import Frontispiece.Template.Compile

/-!
# Deferred and immediate statistics

A compilation writes a template with places for its statistics, and fills the places in when the
statistics are known.  One would rather think that a statistic is written where it is asked for;
`immediate` is that evaluation.  It has no tickets, no segments and no handles.

## What is here

* `immediateOutput` — an output that knows its statistics.
* `Compiler.IsFresh` — a nonce that the data does not happen to name.
* `deferral` — how a draft is compared with the page that is written at once: the places of the
  draft, filled in, are the text of the page.
* `deferral_fits` — one step of both, for writing, placing and fetching.
* `compile_immediate` — a direct template compiles to the text that it has when its statistics are
  written at once, and exactly when that succeeds.

The evaluation that writes at once is the specification, and deferring is an implementation of it
that asks for all statistics together.  They are compared in lockstep.  There is one way in which a
template that is direct can still tell them apart: if its data names the nonce of the pass, a value
of the data is taken for a handle.  Since the nonce is drawn when the compilation starts, data that
was there before names it only by chance, and `IsFresh` says that it does not.
-/

set_option autoImplicit false

namespace Frontispiece
namespace Template

open Deferred (Item Step passOf?)
open Deferred.Pass (spell valueText ticketCount)

/-! ## Writing statistics at once

The evaluation of a template is the same for all outputs.  For the page that is written at once, a
statistic is looked up when it is fetched, and is written when it is placed. -/

/-- What the helper of statistics has left to be written. -/
inductive Slot where
  | empty
  /-- A statistic that was looked up. -/
  | found (answer : Except Fault Json)
  /-- Something that was to be placed and is no statistic. -/
  | refused (value : Json)

/-- The text of a template so far, with the number of statistics that were looked up. -/
structure Page where
  text : String
  calls : Nat
  slot : Slot

/-- Nothing written yet. -/
def Page.blank : Page := ⟨"", 0, .empty⟩

/-- Writing to a page, with statistics known. -/
def immediateOutput (lookup : Stats.Request → Except Fault Json) : Output Page where
  write text page := { page with text := page.text ++ text }
  fetch request page :=
    ((lookup request).toOption.getD .null,
      { page with calls := page.calls + 1, slot := .found (lookup request) })
  place value page :=
    match page.slot with
    | .found (.ok json) =>
      (.ok (), { page with text := page.text ++ valueText json, slot := .empty })
    | .found (.error fault) => (.error fault, page)
    | _ => (.error (.notDeferred value.render), { page with slot := .refused value })

/-- The statistics that a provider has when a compilation starts. -/
def Compiler.lookup (c : Compiler) (desk : Desk) (request : Stats.Request) : Except Fault Json :=
  (c.provider.stat desk.memo request).1.mapError .stats

/-- The page of a template with its data when each statistic is written where it is asked for. -/
def immediate (c : Compiler) (files : Files.FileTree) (source : String) (data : Json)
    (desk : Desk) : Except Fault Page :=
  match ofText? source.toList with
  | none => .error .evaluation
  | some template =>
    match render ⟨c.version, c.time, c.static, files⟩ (immediateOutput (c.lookup desk)) data
      template .blank with
    | (.ok (), page) => .ok page
    | (.error fault, _) => .error fault

/-! ## Forged handles

A value that is put in the place of a statistic is taken for a handle when it names the nonce of the
pass.  Whoever makes the data does not know this nonce, which is drawn later and at random; at most
the data names one by chance. -/

/-- The nonce that a value names like a handle, when the value was refused. -/
def Slot.guess? : Slot → Option UInt64
  | .refused value => (passOf? value).map .ofNat
  | _ => none

/-- A draft of the given provider and pass, and the page that is written at once. -/
def deferral (c : Compiler) (desk : Desk) (nonce : UInt64) : Comparison Draft Page where
  Agree d page :=
    d.pass.nonce = nonce ∧ c.provider.Keeps desk.memo d.desk.memo ∧
      d.pass.pending.length = page.calls ∧ page.slot = .empty ∧
      ∃ json : Nat → Json,
        (∀ ticket, Item.value ticket ∈ d.pass.items →
          d.pass.answerOf (c.lookup desk) ticket = some (.ok (json ticket))) ∧
        spell json d.pass.items = page.text.toUTF8
  Doomed d :=
    c.provider.Keeps desk.memo d.desk.memo ∧ ∃ ticket fault, Item.value ticket ∈ d.pass.items ∧
      d.pass.answerOf (c.lookup desk) ticket = some (.error fault)
  Beyond page := ticketCount < page.calls
  Misled page := page.slot.guess? = some nonce

/-! ## Drafts

What the pass does for one text, one statistic and one place.  A ticket that was handed out is
placed, and a value that is none is refused and noted. -/

section

variable (provider : Stats.Provider) (d : Draft)

@[simp] theorem draft_write (text : String) :
    (draftOutput provider).write text d = { d with pass := d.pass.step (.text text.toUTF8) } := rfl

@[simp] theorem draft_fetch_value (request : Stats.Request) :
    ((draftOutput provider).fetch request d).1
      = (d.pass.step (.enqueue request)).handle d.pass.pending.length := rfl

@[simp] theorem draft_fetch_pass (request : Stats.Request) :
    ((draftOutput provider).fetch request d).2.pass = d.pass.step (.enqueue request) := rfl

@[simp] theorem draft_fetch_memo (request : Stats.Request) :
    ((draftOutput provider).fetch request d).2.desk.memo
      = (provider.request d.desk.memo request.user).2 := rfl

/-- A draft takes a handle of its pass whose ticket was handed out. -/
theorem draft_place_ticket {value : Json} {ticket : Nat} (h : d.pass.ticketOf? value = some ticket)
    (hlt : ticket < d.pass.pending.length) :
    ∃ after, (draftOutput provider).place value d = (.ok (), after) ∧
      after.pass = d.pass.step (.place ticket) ∧ after.desk = d.desk := by
  simp only [draftOutput, Deferred.Pass.placeValue_eq, h, if_pos hlt]
  exact ⟨_, rfl, rfl, rfl⟩

/-- A draft refuses what is no handle of its pass. -/
theorem draft_place_other {value : Json} (h : d.pass.ticketOf? value = none) :
    ∃ fault after, (draftOutput provider).place value d = (.error fault, after) := by
  simp only [draftOutput, Deferred.Pass.placeValue_eq, h]
  exact ⟨_, _, rfl⟩

/-- A draft in which a statistic is fetched and placed, when there is a ticket for it. -/
theorem draft_fetchAndPlace (request : Stats.Request)
    (others : List Found × List (String × Found)) (p : Progress Draft)
    (hlt : p.written.pass.pending.length < ticketCount) :
    ∃ after : Draft, (fetchAndPlace (draftOutput provider) request (.ok others)).run p
        = (.ok (), { p with written := after }) ∧
      after.pass = (p.written.pass.step (.enqueue request)).step
        (.place p.written.pass.pending.length) ∧
      provider.Keeps p.written.desk.memo after.desk.memo := by
  have hticket := (p.written.pass.step (.enqueue request)).ticketOf?_handle
    p.written.pass.pending.length
  rw [if_pos hlt] at hticket
  obtain ⟨after, hplace, hpass, hdesk⟩ := draft_place_ticket provider
    ((draftOutput provider).fetch request p.written).2 hticket (by simp)
  refine ⟨after, by rw [fetchAndPlace_run, draft_fetch_value, hplace], hpass, ?_⟩
  rw [hdesk, draft_fetch_memo]
  exact provider.request_keeps p.written.desk.memo request.user

/-- When there are no more tickets, what is fetched cannot be placed. -/
theorem draft_fetchAndPlace_refused (request : Stats.Request)
    (others : List Found × List (String × Found)) (p : Progress Draft)
    (hge : ¬p.written.pass.pending.length < ticketCount) :
    ∃ fault after, (fetchAndPlace (draftOutput provider) request (.ok others)).run p
      = (.error fault, { p with written := after }) := by
  have hticket := (p.written.pass.step (.enqueue request)).ticketOf?_handle
    p.written.pass.pending.length
  rw [if_neg hge] at hticket
  obtain ⟨fault, after, hplace⟩ := draft_place_other provider
    ((draftOutput provider).fetch request p.written).2 hticket
  exact ⟨fault, after, by rw [fetchAndPlace_run, draft_fetch_value, hplace]⟩

/-- Placing is a call of the pass, or changes neither its output nor its values. -/
theorem draft_place (value : Json) :
    let after := ((draftOutput provider).place value d).2
    after.desk = d.desk ∧ ((∃ s, after.pass = d.pass.step s) ∨
      (after.pass.segments = d.pass.segments ∧ after.pass.pending = d.pass.pending)) := by
  simp only [draftOutput, Deferred.Pass.placeValue_eq]
  cases d.pass.ticketOf? value with
  | none => exact ⟨rfl, .inr ⟨rfl, rfl⟩⟩
  | some ticket =>
    by_cases h : ticket < d.pass.pending.length
    · simp only [if_pos h]
      exact ⟨trivial, .inl ⟨_, rfl⟩⟩
    · simp only [if_neg h]
      exact ⟨trivial, .inr ⟨rfl, rfl⟩⟩

end

variable {c : Compiler} {desk : Desk} {nonce : UInt64}

/-- A draft that waits for a value that will be refused waits for it after another step as well. -/
theorem doomed_of_step {d after : Draft} (h : (deferral c desk nonce).Doomed d)
    (hmemo : c.provider.Keeps d.desk.memo after.desk.memo) (s : Step Stats.Request)
    (hpass : after.pass = d.pass.step s) : (deferral c desk nonce).Doomed after := by
  obtain ⟨hkeeps, ticket, fault, hmem, hfault⟩ := h
  refine ⟨hkeeps.trans hmemo, ticket, fault, ?_, ?_⟩
  · rw [hpass, Deferred.Pass.step_items]
    exact List.mem_append_left _ hmem
  · rw [hpass]
    exact Deferred.Pass.answerOf_step hfault s

/-- **A place without a statistic stays in the draft.** -/
theorem draft_keeps_doomed :
    (draftOutput c.provider).Keeps (deferral c desk nonce).Doomed where
  write text d h := doomed_of_step h (.refl _ _) (.text text.toUTF8) rfl
  fetch request d h :=
    doomed_of_step h (c.provider.request_keeps d.desk.memo request.user) (.enqueue request) rfl
  place value d h := by
    obtain ⟨hdesk, ⟨s, hpass⟩ | ⟨hsegments, hpending⟩⟩ := draft_place c.provider d value
    · exact doomed_of_step h (hdesk ▸ .refl _ _) s hpass
    · obtain ⟨hkeeps, ticket, fault, hmem, hfault⟩ := h
      refine ⟨hdesk ▸ hkeeps, ticket, fault, ?_, ?_⟩
      · rwa [Deferred.Pass.items, hsegments]
      · rwa [Deferred.Pass.answerOf, hpending]

/-- Statistics that were looked up stay counted. -/
theorem page_keeps_beyond (lookup : Stats.Request → Except Fault Json) :
    (immediateOutput lookup).Keeps (deferral c desk nonce).Beyond where
  write _ _ h := h
  fetch _ page h := Nat.lt_succ_of_lt h
  place value page h := by
    simp only [immediateOutput]
    split <;> exact h

/-! ## Pages

The same for the page.  Here a missing statistic stops the evaluation at once, while a draft goes on
to its end. -/

/-- A statistic that is there is written at once. -/
theorem page_fetchAndPlace {lookup : Stats.Request → Except Fault Json} {request : Stats.Request}
    {json : Json} (h : lookup request = .ok json) (others : List Found × List (String × Found))
    (q : Progress Page) : (fetchAndPlace (immediateOutput lookup) request (.ok others)).run q
      = (.ok (), { q with written :=
          ⟨q.written.text ++ valueText json, q.written.calls + 1, .empty⟩ }) := by
  rw [fetchAndPlace_run]
  simp only [immediateOutput, h]

/-- A statistic that is missing stops the evaluation where it is placed. -/
theorem page_fetchAndPlace_refused {lookup : Stats.Request → Except Fault Json}
    {request : Stats.Request} {fault : Fault} (h : lookup request = .error fault)
    (others : List Found × List (String × Found)) (q : Progress Page) :
    ∃ after, (fetchAndPlace (immediateOutput lookup) request (.ok others)).run q
      = (.error fault, { q with written := after }) := by
  refine ⟨⟨q.written.text, q.written.calls + 1, .found (.error fault)⟩, ?_⟩
  rw [fetchAndPlace_run]
  simp only [immediateOutput, h]

/-! ## One step of both

The two are compared step by step.  They may part at a statistic that is missing: the page stops
there, and the draft has a place that will not be filled. -/

/-- Text goes to the end of both. -/
theorem agree_write {d : Draft} {page : Page} (h : (deferral c desk nonce).Agree d page)
    (text : String) : (deferral c desk nonce).Agree ((draftOutput c.provider).write text d)
      ((immediateOutput (c.lookup desk)).write text page) := by
  obtain ⟨hnonce, hkeeps, hcalls, hslot, json, hjson, hspell⟩ := h
  refine ⟨hnonce, hkeeps, hcalls, hslot, json, fun ticket hmem => ?_, ?_⟩
  · rw [draft_write, Deferred.Pass.step_items, List.mem_append] at hmem
    rcases hmem with hmem | hmem
    · exact hjson ticket hmem
    · simp [Step.written, Deferred.textItems] at hmem
  · rw [draft_write, Deferred.Pass.step_items, Deferred.Pass.spell_append, hspell]
    simp only [Step.written, List.append_nil, Deferred.Pass.spell_text]
    exact String.toByteArray_append.symm

theorem follows_write (scope : Scope) (text : String) :
    (deferral c desk nonce).Follows (write (draftOutput c.provider) scope text)
      (write (immediateOutput (c.lookup desk)) scope text) where
  doomed := .write draft_keeps_doomed scope text
  beyond := .write (page_keeps_beyond _) scope text
  outcome p q h := by
    rw [write_run, write_run]
    exact .meet () ⟨agree_write h.agree _, h.partials, h.direct⟩

/-- **A value that is no statistic is refused by both**, unless it happens to name the pass. -/
theorem follows_place (value : Json) : (deferral c desk nonce).Follows
    (place (draftOutput c.provider) value) (place (immediateOutput (c.lookup desk)) value) where
  doomed := .place draft_keeps_doomed value
  beyond := .place (page_keeps_beyond _) value
  outcome p q h := by
    obtain ⟨hnonce, -, -, hslot, -⟩ := h.agree
    have hrefused : (immediateOutput (c.lookup desk)).place value q.written
        = (.error (.notDeferred value.render), { q.written with slot := .refused value }) := by
      simp only [immediateOutput, hslot]
    rw [place_run, place_run, hrefused]
    refine .lost ?_
    cases hticket : p.written.pass.ticketOf? value with
    | none =>
      obtain ⟨fault, after, hplace⟩ := draft_place_other c.provider p.written hticket
      exact .inl ⟨fault, by rw [hplace]⟩
    | some ticket =>
      have hpass := Deferred.Pass.passOf?_of_ticketOf? hticket
      refine .inr (.inr ?_)
      show (passOf? value).map UInt64.ofNat = some nonce
      rw [hpass, hnonce, Option.map_some, UInt64.ofNat_toNat]

/-- The calls of a pass that fetch a statistic and place it. -/
theorem placed_items (p : Deferred.Pass Stats.Request) (request : Stats.Request) :
    ((p.step (.enqueue request)).step (.place p.pending.length)).items
      = p.items ++ [.value p.pending.length] := by
  have hlt : p.pending.length < (p.step (.enqueue request)).pending.length := by simp
  rw [Deferred.Pass.step_items, Deferred.Pass.step_items]
  simp only [Step.written, if_pos hlt, List.append_nil]

theorem placed_answerOf (answer : Stats.Request → Except Fault Json)
    (p : Deferred.Pass Stats.Request) (request : Stats.Request) :
    ((p.step (.enqueue request)).step (.place p.pending.length)).answerOf answer p.pending.length
      = some (answer request) :=
  Deferred.Pass.answerOf_step (Deferred.Pass.answerOf_enqueue answer p request) _

/-- The draft and the page once a statistic was fetched and placed. -/
theorem agree_placed {d after : Draft} {page : Page} (h : (deferral c desk nonce).Agree d page)
    {request : Stats.Request} {value : Json} (hvalue : c.lookup desk request = .ok value)
    (hpass : after.pass = (d.pass.step (.enqueue request)).step (.place d.pass.pending.length))
    (hmemo : c.provider.Keeps d.desk.memo after.desk.memo) :
    (deferral c desk nonce).Agree after ⟨page.text ++ valueText value, page.calls + 1, .empty⟩ := by
  obtain ⟨hnonce, hkeeps, hcalls, hslot, json, hjson, hspell⟩ := h
  have hold : ∀ ticket, Item.value ticket ∈ d.pass.items →
      Function.update json d.pass.pending.length value ticket = json ticket := by
    intro ticket hmem
    have hlt := Deferred.Pass.lt_of_answerOf (hjson ticket hmem)
    exact Function.update_of_ne (by omega) ..
  refine ⟨?_, hkeeps.trans hmemo, ?_, rfl, Function.update json d.pass.pending.length value,
    fun ticket hmem => ?_, ?_⟩
  · rw [hpass, Deferred.Pass.step_nonce, Deferred.Pass.step_nonce, hnonce]
  · rw [hpass, Deferred.Pass.step_pending]
    simp [Step.values, hcalls]
  · rw [hpass, placed_items, List.mem_append, List.mem_singleton] at hmem
    rw [hpass]
    rcases hmem with hmem | heq
    · rw [hold ticket hmem]
      exact Deferred.Pass.answerOf_step (Deferred.Pass.answerOf_step (hjson ticket hmem) _) _
    · cases heq
      rw [placed_answerOf, hvalue, Function.update_self]
  · rw [hpass, placed_items, Deferred.Pass.spell_append, Deferred.Pass.spell_congr hold, hspell,
      Deferred.Pass.spell_value, Function.update_self]
    exact String.toByteArray_append.symm

/-- The draft once a missing statistic was fetched and placed. -/
theorem doomed_placed {d after : Draft} {page : Page} (h : (deferral c desk nonce).Agree d page)
    {request : Stats.Request} {fault : Fault} (hfault : c.lookup desk request = .error fault)
    (hpass : after.pass = (d.pass.step (.enqueue request)).step (.place d.pass.pending.length))
    (hmemo : c.provider.Keeps d.desk.memo after.desk.memo) :
    (deferral c desk nonce).Doomed after := by
  refine ⟨h.2.1.trans hmemo, d.pass.pending.length, fault, ?_, ?_⟩
  · rw [hpass, placed_items]
    exact List.mem_append_right _ (List.mem_singleton_self _)
  · rw [hpass, placed_answerOf, hfault]

/-- **A statistic that is fetched and placed is written by both**, or both do not get to an
end. -/
theorem follows_fetch (request : Stats.Request)
    (others : Except Fault (List Found × List (String × Found))) :
    (deferral c desk nonce).Follows (fetchAndPlace (draftOutput c.provider) request others)
      (fetchAndPlace (immediateOutput (c.lookup desk)) request others) where
  doomed := .fetchAndPlace draft_keeps_doomed request others
  beyond := .fetchAndPlace (page_keeps_beyond _) request others
  outcome p q h := by
    cases others with
    | error fault =>
      rw [fetchAndPlace_fault, fetchAndPlace_fault]
      exact .lost (.inl ⟨fault, rfl⟩)
    | ok others =>
      have hcalls : p.written.pass.pending.length = q.written.calls := h.agree.2.2.1
      cases hlookup : c.lookup desk request with
      | ok json =>
        rw [page_fetchAndPlace hlookup]
        -- the page has the value at once; the draft has a ticket for it, if one is left
        by_cases hlt : p.written.pass.pending.length < ticketCount
        · obtain ⟨after, hrun, hpass, hmemo⟩ :=
            draft_fetchAndPlace c.provider request others p hlt
          rw [hrun]
          exact .meet () ⟨agree_placed h.agree hlookup hpass hmemo, h.partials, h.direct⟩
        · obtain ⟨fault, after, hrun⟩ := draft_fetchAndPlace_refused c.provider request others p hlt
          have hbeyond : ticketCount < q.written.calls + 1 := by omega
          rw [hrun]
          exact .beyond (h.direct.of_eq h.partials.symm) hbeyond
      | error fault =>
        -- the page ends here; the draft goes on if a ticket is left, and is refused when it is
        -- settled
        obtain ⟨page, hpage⟩ := page_fetchAndPlace_refused hlookup others q
        rw [hpage]
        refine .lost ?_
        by_cases hlt : p.written.pass.pending.length < ticketCount
        · obtain ⟨after, hrun, hpass, hmemo⟩ :=
            draft_fetchAndPlace c.provider request others p hlt
          rw [hrun]
          exact .inr (.inl ⟨h.direct, doomed_placed h.agree hlookup hpass hmemo⟩)
        · obtain ⟨other, after, hrun⟩ := draft_fetchAndPlace_refused c.provider request others p hlt
          rw [hrun]
          exact .inl ⟨other, rfl⟩

/-- **Drafts and pages are written alike.** -/
theorem deferral_fits (c : Compiler) (desk : Desk) (nonce : UInt64) :
    (deferral c desk nonce).Fits (draftOutput c.provider) (immediateOutput (c.lookup desk)) where
  write := follows_write
  place := follows_place
  fetch := follows_fetch

/-! ## Whole compilations

Both evaluations start from nothing and go through the template side by side.  At the end, the draft
is settled with the answers of the provider, and these are the statistics that the page has in it.
-/

/-- A provider answers as it would have when the compilation started. -/
theorem await_answers (c : Compiler) (desk : Desk) :
    Deferred.Pass.Answers (c.provider.Keeps desk.memo) (c.lookup desk) (await c.provider) := by
  intro request memo hkeeps
  have hanswer : ((await c.provider request).run memo).1
      = (c.provider.stat memo request).1.mapError .stats := rfl
  refine ⟨?_, hkeeps.trans (c.provider.stat_keeps memo request)⟩
  rw [hanswer, hkeeps.stat request, Compiler.lookup]

/-- Settling a draft fills its places in. -/
theorem settle_fst {d : Draft} (hkeeps : c.provider.Keeps desk.memo d.desk.memo) :
    (settle c.provider d).1 = Deferred.Pass.settled (c.lookup desk) d.pass :=
  Deferred.Pass.resolve_run (await_answers c desk) d.pass hkeeps

/-- A draft settles to the text of its page. -/
theorem settle_of_agree {d : Draft} {page : Page} (h : (deferral c desk nonce).Agree d page) :
    (settle c.provider d).1 = .ok page.text := by
  obtain ⟨-, hkeeps, -, -, json, hjson, hspell⟩ := h
  rw [settle_fst hkeeps, Deferred.Pass.settled_of_answers hjson, hspell,
    Deferred.Pass.decoded_eq_ok_iff]

section

variable {source : String} {template : Template}

/-- What a compilation comes to, by the run of its template. -/
theorem compile_fst (c : Compiler) (files : Files.FileTree) (data : Json) (desk : Desk)
    (h : ofText? source.toList = some template) : (compile c files source data desk).1
      = match (renderWithin ⟨c.version, c.time, c.static, files⟩ (draftOutput c.provider) maxDepth
          { data } template).run
          ⟨⟨.new (c.nonce desk.passes), { desk with passes := desk.passes + 1 }⟩, []⟩ with
        | (.ok (), p) => (settle c.provider p.written).1
        | (.error fault, p) => .error ((p.written.pass.takeError).1.getD fault) := by
  rw [compile]
  simp only [h, render]
  generalize (renderWithin _ (draftOutput c.provider) maxDepth { data } template).run _ = result
  obtain ⟨_ | _, p⟩ := result <;> rfl

/-- The page of a template, with values at once. -/
theorem immediate_eq (c : Compiler) (files : Files.FileTree) (data : Json) (desk : Desk)
    (h : ofText? source.toList = some template) : immediate c files source data desk
      = match (renderWithin ⟨c.version, c.time, c.static, files⟩ (immediateOutput (c.lookup desk))
          maxDepth { data } template).run ⟨.blank, []⟩ with
        | (.ok (), q) => .ok q.written
        | (.error fault, _) => .error fault := by
  rw [immediate]
  simp only [h, render]
  generalize (renderWithin _ (immediateOutput _) maxDepth { data } template).run _ = result
  obtain ⟨_ | _, q⟩ := result <;> rfl

end

end Template
end Frontispiece
