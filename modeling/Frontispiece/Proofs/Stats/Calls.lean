import Frontispiece.Proofs.Stats.Policy
import Mathlib.Data.List.Nodup

/-!
# Calls of a provider

A provider is called any number of times: requests are made, and awaited at once, later, or never,
alone or several together.  It keeps what its source said.  The statement here is that this shows in
nothing but the number of times the source is asked: every call is answered as if there were no
memo, and each user whose record is awaited is asked for once.

## What is here

* `Call`, `Answer` — what a provider is called for.  `Source.answer` answers a call without a memo,
  and `Source.awaited` tells whose records are awaited for it.
* `Provider.runVia` — calls of a provider whose source is asked in any monad.  With `noted` the
  monad keeps a list of whom the source was asked for.
* `run_fst` — the answers to calls do not show the memo.
* `Tracks`, `Leads` — a memo and such a list fit together, and how a computation makes the list
  longer.  `recordVia_leads` is the step, `joinVia_leads` and `runVia_leads` follow by induction.
* `run_memoized` — what this comes to for calls of a new provider.

A request that is awaited later is not kept anywhere by the provider: awaiting it is the same as
asking at that time.  So a call can be described by itself, and the state is the memo alone.  Two
things are proved of it by one induction: that answers do not depend on it, and whom the source is
asked for; the second needs a source that can be watched, which is why asking is done in a monad
there.
-/

set_option autoImplicit false

namespace Frontispiece
namespace Stats

/-- What a provider is called for.  A request is what it is for, so that awaiting one that was made
before is the same as making it again. -/
inductive Call where
  /-- A request for a user is made. -/
  | make (user : String)
  /-- A record is requested and awaited. -/
  | record (user : String)
  /-- A statistic is requested and awaited. -/
  | stat (r : Request)
  /-- Statistics are requested, and then awaited together. -/
  | join (rs : List Request)

/-- What a call is answered with. -/
inductive Answer where
  | made
  | record (answer : Except Fault Record)
  | stat (answer : Except Fault Json)
  | join (answer : Except Fault (List Json))

/-! ## Without a memo

Without a memo, a call goes to the source for each statistic.  This is what the answers should be.
-/

namespace Source

variable (source : Source)

/-- What a source says to a call.  Requests that are awaited together are answered with their values
in order, or as the first of them that fails. -/
def answer : Call → Answer
  | .make _ => .made
  | .record user => .record (source.fetch user)
  | .stat r => .stat (source.stat r)
  | .join rs => .join (rs.mapM source.stat)

/-- Requests up to the first that fails. -/
def reached : List Request → List Request
  | [] => []
  | r :: rest =>
    match source.stat r with
    | .error _ => [r]
    | .ok _ => r :: reached rest

/-- The users whose records are awaited for a call. -/
def awaited : Call → List String
  | .make _ => []
  | .record user => [user]
  | .stat r => [r.user]
  | .join rs => (source.reached rs).map Request.user

end Source

namespace Provider

variable (p : Provider)

/-! ## With a memo

The provider as it is, with its memo handed on from one call to the next.  Requests ask for nothing;
only awaiting does. -/

/-- Requests for the users of statistics. -/
def requestAll (memo : Memo) (rs : List Request) : Memo :=
  rs.foldl (fun memo r => (p.request memo r.user).2) memo

/-- The answer to a call, and the memo after it. -/
def call (memo : Memo) : Call → Answer × Memo
  | .make user => (.made, (p.request memo user).2)
  | .record user =>
    let (answer, memo) := p.record (p.request memo user).2 user
    (.record answer, memo)
  | .stat r =>
    let (answer, memo) := p.stat (p.request memo r.user).2 r
    (.stat answer, memo)
  | .join rs =>
    let (answer, memo) := p.joinStats (p.requestAll memo rs) rs
    (.join answer, memo)

/-- The answers to calls in order, and the memo after them. -/
def run (memo : Memo) : List Call → List Answer × Memo
  | [] => ([], memo)
  | c :: rest =>
    let (answer, memo) := p.call memo c
    let (answers, memo) := run memo rest
    (answer :: answers, memo)

/-! ## With any way of asking

The same again, with the source asked in a monad, so that it can be noted who is asked for, and so
that asking may do whatever it likes. -/

section

variable {m : Type → Type} [Monad m] (ask : String → m (Except Fault Record))

/-- `record` when the source is asked by `ask`. -/
def recordVia (memo : Memo) (user : String) : m (Except Fault Record × Memo) :=
  if p.usesPlaceholder then pure (.ok (Record.placeholder user), memo)
  else
    match memo.users.get? user with
    | some (some answer) => pure (answer, memo)
    | _ => do
      let answer ← ask user
      pure (answer, ⟨memo.users.insert user (some answer), memo.fetches + 1⟩)

/-- `stat` when the source is asked by `ask`. -/
def statVia (memo : Memo) (r : Request) : m (Except Fault Json × Memo) := do
  let (answer, memo) ← p.recordVia ask memo r.user
  pure (answer.bind fun record => record.stat r.field, memo)

/-- `joinStats` when the source is asked by `ask`. -/
def joinVia (memo : Memo) : List Request → m (Except Fault (List Json) × Memo)
  | [] => pure (.ok [], memo)
  | r :: rest => do
    match ← p.statVia ask memo r with
    | (.error fault, memo) => pure (.error fault, memo)
    | (.ok value, memo) => do
      let (values, memo) ← joinVia memo rest
      pure (values.map (value :: ·), memo)

/-- `call` when the source is asked by `ask`. -/
def callVia (memo : Memo) : Call → m (Answer × Memo)
  | .make user => pure (.made, (p.request memo user).2)
  | .record user => do
    let (answer, memo) ← p.recordVia ask (p.request memo user).2 user
    pure (.record answer, memo)
  | .stat r => do
    let (answer, memo) ← p.statVia ask (p.request memo r.user).2 r
    pure (.stat answer, memo)
  | .join rs => do
    let (answer, memo) ← p.joinVia ask (p.requestAll memo rs) rs
    pure (.join answer, memo)

/-- `run` when the source is asked by `ask`. -/
def runVia (memo : Memo) : List Call → m (List Answer × Memo)
  | [] => pure ([], memo)
  | c :: rest => do
    let (answer, memo) ← p.callVia ask memo c
    let (answers, memo) ← runVia memo rest
    pure (answer :: answers, memo)

end

/-! ## Answers do not show the memo

A memo that starts empty has only what the source said.  So it makes no difference whether an answer
is taken from it, and by induction on the calls no answer ever shows the memo. -/

/-- The source whose answers a provider gives. -/
def answering : Source :=
  if p.usesPlaceholder then .placeholder else p.source

variable {p} {memo : Memo}

/-- Whether it is noted or asked for, a record is the one that the source gives. -/
theorem record_eq_fetch (h : p.Keeps .empty memo) (user : String) :
    (p.record memo user).1 = p.answering.fetch user := by
  rw [h user, answering]
  split
  · next hplaceholder =>
    rw [record_of_placeholder p hplaceholder]
    rfl
  · next hplaceholder =>
    rw [record_fst p hplaceholder]
    rfl

theorem stat_eq (h : p.Keeps .empty memo) (r : Request) :
    (p.stat memo r).1 = p.answering.stat r := by
  rw [stat_fst, record_eq_fetch h, Source.stat]

/-- Several statistics are had one after the other, up to the first failure. -/
theorem joinStats_cons (memo : Memo) (r : Request) (rest : List Request) :
    p.joinStats memo (r :: rest) =
      match (p.stat memo r).1 with
      | .error fault => (.error fault, (p.stat memo r).2)
      | .ok value =>
        ((p.joinStats (p.stat memo r).2 rest).1.map (value :: ·),
          (p.joinStats (p.stat memo r).2 rest).2) := by
  rw [joinStats]
  rcases p.stat memo r with ⟨_ | _, _⟩ <;> rfl

/-- **Statistics that are awaited together are answered in order**, or as the first that fails. -/
theorem joinStats_eq (h : p.Keeps .empty memo) (rs : List Request) :
    (p.joinStats memo rs).1 = rs.mapM p.answering.stat := by
  induction rs generalizing memo with
  | nil => rfl
  | cons r rest ih =>
    have hrest := ih (h.trans (p.stat_keeps memo r))
    rw [joinStats_cons, List.mapM_cons, stat_eq h r, ← hrest]
    cases p.answering.stat r with
    | error fault => rfl
    | ok value => cases (p.joinStats (p.stat memo r).2 rest).1 <;> rfl

/-- What has been noted stays noted. -/
theorem joinStats_keeps (memo : Memo) (rs : List Request) :
    p.Keeps memo (p.joinStats memo rs).2 := by
  induction rs generalizing memo with
  | nil => exact .refl p memo
  | cons r rest ih =>
    have hstat := p.stat_keeps memo r
    rw [joinStats_cons]
    cases (p.stat memo r).1 with
    | error fault => exact hstat
    | ok value => exact hstat.trans (ih _)

theorem requestAll_keeps (memo : Memo) (rs : List Request) :
    p.Keeps memo (p.requestAll memo rs) := by
  induction rs generalizing memo with
  | nil => exact .refl p memo
  | cons r rest ih => exact (p.request_keeps memo r.user).trans (ih _)

/-- **A call is answered as if there were no memo.** -/
theorem call_fst (h : p.Keeps .empty memo) (c : Call) :
    (p.call memo c).1 = p.answering.answer c := by
  cases c with
  | make user => rfl
  | record user => exact congrArg _ (record_eq_fetch (h.trans (p.request_keeps memo user)) user)
  | stat r => exact congrArg _ (stat_eq (h.trans (p.request_keeps memo r.user)) r)
  | join rs => exact congrArg _ (joinStats_eq (h.trans (requestAll_keeps memo rs)) rs)

theorem call_keeps (memo : Memo) (c : Call) : p.Keeps memo (p.call memo c).2 := by
  cases c with
  | make user => exact p.request_keeps memo user
  | record user => exact (p.request_keeps memo user).trans (p.record_keeps _ user)
  | stat r => exact (p.request_keeps memo r.user).trans (p.stat_keeps _ r)
  | join rs => exact (requestAll_keeps memo rs).trans (joinStats_keeps _ rs)

/-- **No answer shows the memo**, by induction on the calls. -/
theorem run_fst (h : p.Keeps .empty memo) (calls : List Call) :
    (p.run memo calls).1 = calls.map p.answering.answer := by
  induction calls generalizing memo with
  | nil => rfl
  | cons c rest ih =>
    rw [List.map_cons, ← call_fst h c, ← ih (h.trans (call_keeps memo c))]
    rfl

/-! ## Whom the source is asked for

The memo has an answer for each user who was asked for, and these are all.  Together with the list
of users this is an invariant, which gives both that nobody is asked for twice and who is asked for.
-/

/-- Asks a source, and notes the user. -/
def noted (source : Source) (user : String) : StateM (List String) (Except Fault Record) := do
  modify (· ++ [user])
  pure (source.fetch user)

/-- A memo holds answers for the users of a list, each of them once. -/
structure Tracks (memo : Memo) (asked : List String) : Prop where
  nodup : asked.Nodup
  mem_iff : ∀ user, user ∈ asked ↔ ∃ answer, memo.users.get? user = some (some answer)
  fetches : memo.fetches = asked.length

theorem Tracks.empty : Tracks .empty [] where
  nodup := .nil
  mem_iff user := by simp [Memo.empty]
  fetches := rfl

variable (p) in
/-- A request is not an answer. -/
theorem Tracks.request {asked : List String} (h : Tracks memo asked) (user : String) :
    Tracks (p.request memo user).2 asked := by
  rw [Provider.request]
  split
  · exact h
  · next hnew =>
    refine ⟨h.nodup, fun other => ?_, h.fetches⟩
    rw [h.mem_iff]
    by_cases heq : other = user
    · have hmiss : memo.users.get? user = none := by
        rw [Fields.get?_eq_none_iff, ← Fields.contains_iff]
        simp only [Bool.or_eq_true, not_or] at hnew
        exact hnew.2
      simp [heq, hmiss]
    · rw [Fields.get?_insert_of_ne heq]

variable (p) in
theorem Tracks.requestAll {asked : List String} (h : Tracks memo asked) (rs : List Request) :
    Tracks (p.requestAll memo rs) asked := by
  induction rs generalizing memo with
  | nil => exact h
  | cons r rest ih => exact ih (h.request p r.user)

/-- An answer for a new user. -/
theorem Tracks.insert {asked : List String} (h : Tracks memo asked) {user : String}
    (hnew : user ∉ asked) (answer : Except Fault Record) :
    Tracks ⟨memo.users.insert user (some answer), memo.fetches + 1⟩ (asked ++ [user]) where
  nodup := List.concat_eq_append ▸ h.nodup.concat hnew
  mem_iff other := by
    rw [List.mem_append, List.mem_singleton, h.mem_iff]
    by_cases heq : other = user
    · simp [heq]
    · rw [Fields.get?_insert_of_ne heq, or_iff_left heq]
  fetches := by rw [List.length_append, List.length_singleton, h.fetches]

/-- What a computation with a list leads to: the answer and the memo of the provider without one,
and a list that fits the memo and has those of `users` besides. -/
structure Leads {α : Type} (x : StateM (List String) (α × Memo)) (asked : List String)
    (result : α × Memo) (users : List String) : Prop where
  result_eq : (x.run asked).1 = result
  tracks : Tracks result.2 (x.run asked).2
  mem_iff : ∀ user, user ∈ (x.run asked).2 ↔ user ∈ asked ∨ user ∈ users

variable {α β : Type} {asked : List String}

theorem Leads.pure {result : α × Memo} (h : Tracks result.2 asked) :
    Leads (Pure.pure result) asked result [] where
  result_eq := rfl
  tracks := h
  mem_iff user := by
    show user ∈ asked ↔ _
    simp

/-- Computations compose. -/
theorem Leads.bind {x : StateM (List String) (α × Memo)} {result : α × Memo} {users : List String}
    (hx : Leads x asked result users) {f : α × Memo → StateM (List String) (β × Memo)}
    {next : β × Memo} {more : List String}
    (hf : ∀ asked', Tracks result.2 asked' → Leads (f result) asked' next more) :
    Leads (x >>= f) asked next (users ++ more) := by
  have hnext := hf _ hx.tracks
  have hrun : (x >>= f).run asked = (f result).run (x.run asked).2 := by
    rw [← hx.result_eq]
    rfl
  refine ⟨?_, ?_, fun user => ?_⟩
  · rw [hrun, hnext.result_eq]
  · rw [hrun]
    exact hnext.tracks
  · rw [hrun, hnext.mem_iff, hx.mem_iff, List.mem_append, or_assoc]

/-- A last step that asks nobody. -/
theorem Leads.map {x : StateM (List String) (α × Memo)} {result : α × Memo} {users : List String}
    (hx : Leads x asked result users) (f : α × Memo → β × Memo)
    (hf : ∀ result, (f result).2 = result.2) :
    Leads (do let result ← x; Pure.pure (f result)) asked (f result) users := by
  have hlast : ∀ asked', Tracks result.2 asked' →
      Leads (Pure.pure (f result)) asked' (f result) [] :=
    fun asked' h => .pure (by rw [hf]; exact h)
  have h := hx.bind (f := fun result => Pure.pure (f result)) hlast
  rwa [List.append_nil] at h

section

variable (hsource : ¬p.usesPlaceholder = true)
include hsource

theorem answering_eq : p.answering = p.source := by
  rw [answering, if_neg hsource]

/-- **Awaiting a record asks for its user, unless the answer is there.** -/
theorem recordVia_leads (htracks : Tracks memo asked) (user : String) :
    Leads (p.recordVia (noted p.source) memo user) asked (p.record memo user) [user] := by
  have hmem := htracks.mem_iff user
  rw [recordVia, record, if_neg hsource, if_neg hsource]
  cases hfound : memo.users.get? user with
  | some kept =>
    cases kept with
    | some answer =>
      refine ⟨rfl, htracks, fun other => ?_⟩
      rw [List.mem_singleton]
      exact ⟨.inl, fun h => h.elim id fun heq => heq ▸ hmem.2 ⟨answer, hfound⟩⟩
    | none =>
      have hnew : user ∉ asked := by simp [hmem, hfound]
      exact ⟨rfl, htracks.insert hnew _, fun other => List.mem_append⟩
  | none =>
    have hnew : user ∉ asked := by simp [hmem, hfound]
    exact ⟨rfl, htracks.insert hnew _, fun other => List.mem_append⟩

theorem statVia_leads (htracks : Tracks memo asked) (r : Request) :
    Leads (p.statVia (noted p.source) memo r) asked (p.stat memo r) [r.user] :=
  (recordVia_leads hsource htracks r.user).map
    (fun result => (result.1.bind fun record => record.stat r.field, result.2)) fun _ => rfl

/-- **Awaiting several asks for users up to the first that fails**, by induction on the requests. -/
theorem joinVia_leads (hkeeps : p.Keeps .empty memo) (htracks : Tracks memo asked)
    (rs : List Request) : Leads (p.joinVia (noted p.source) memo rs) asked (p.joinStats memo rs)
      ((p.source.reached rs).map Request.user) := by
  induction rs generalizing memo asked with
  | nil => exact .pure htracks
  | cons r rest ih =>
    have hstat := statVia_leads hsource htracks r
    have hanswer : (p.stat memo r).1 = p.source.stat r := by
      rw [stat_eq hkeeps, answering_eq hsource]
    rw [joinVia, joinStats_cons, hanswer, Source.reached]
    cases hvalue : p.source.stat r with
    | error fault =>
      rw [List.map_singleton, ← List.append_nil [r.user]]
      refine hstat.bind fun asked' h => ?_
      rw [show p.stat memo r = (.error fault, (p.stat memo r).2) by rw [← hvalue, ← hanswer]]
      exact .pure h
    | ok value =>
      refine hstat.bind fun asked' h => ?_
      rw [show p.stat memo r = (.ok value, (p.stat memo r).2) by rw [← hvalue, ← hanswer]]
      exact (ih (hkeeps.trans (p.stat_keeps memo r)) h).map
        (fun result => (result.1.map (value :: ·), result.2)) fun _ => rfl

/-- A call awaits the users of whom nothing has been noted yet, once each, and then knows of all
that it has asked. -/
theorem callVia_leads (hkeeps : p.Keeps .empty memo) (htracks : Tracks memo asked) (c : Call) :
    Leads (p.callVia (noted p.source) memo c) asked (p.call memo c) (p.source.awaited c) := by
  cases c with
  | make user => exact .pure (htracks.request p user)
  | record user =>
    exact (recordVia_leads hsource (htracks.request p user) user).map
      (fun result => (Answer.record result.1, result.2)) fun _ => rfl
  | stat r =>
    exact (statVia_leads hsource (htracks.request p r.user) r).map
      (fun result => (Answer.stat result.1, result.2)) fun _ => rfl
  | join rs =>
    have hall := hkeeps.trans (requestAll_keeps memo rs)
    exact (joinVia_leads hsource hall (htracks.requestAll p rs) rs).map
      (fun result => (Answer.join result.1, result.2)) fun _ => rfl

/-- **Calls ask for the users whose records are awaited for them**, by induction on the calls. -/
theorem runVia_leads (hkeeps : p.Keeps .empty memo) (htracks : Tracks memo asked)
    (calls : List Call) : Leads (p.runVia (noted p.source) memo calls) asked (p.run memo calls)
      (calls.flatMap p.source.awaited) := by
  induction calls generalizing memo asked with
  | nil => exact .pure htracks
  | cons c rest ih =>
    exact (callVia_leads hsource hkeeps htracks c).bind fun asked' h =>
      (ih (hkeeps.trans (call_keeps memo c)) h).map
        (fun result => ((p.call memo c).1 :: result.1, result.2)) fun _ => rfl

end

/-! ## Placeholders

With placeholders a provider does not look at its memo and puts nothing there.  So what would be
asked, and how, cannot matter. -/

section

variable {m : Type → Type} [Monad m] {ask : String → m (Except Fault Record)}
variable (hplaceholder : p.usesPlaceholder = true)
include hplaceholder

theorem request_of_placeholder (memo : Memo) (user : String) :
    (p.request memo user).2 = memo := by
  rw [request, hplaceholder, Bool.true_or, if_pos rfl]

theorem requestAll_of_placeholder (memo : Memo) (rs : List Request) :
    p.requestAll memo rs = memo := by
  induction rs with
  | nil => rfl
  | cons r rest ih =>
    rw [requestAll, List.foldl_cons, request_of_placeholder hplaceholder]
    exact ih

/-- With placeholders nothing is noted. -/
theorem joinStats_of_placeholder (memo : Memo) (rs : List Request) :
    (p.joinStats memo rs).2 = memo := by
  induction rs with
  | nil => rfl
  | cons r rest ih =>
    have hstat : (p.stat memo r).2 = memo := by
      rw [stat_snd, record_of_placeholder p hplaceholder]
    rw [joinStats_cons, hstat]
    cases (p.stat memo r).1 with
    | error fault => rfl
    | ok value => exact ih

/-- A call with placeholders leaves the notes as they are. -/
theorem call_of_placeholder (memo : Memo) (c : Call) : (p.call memo c).2 = memo := by
  cases c with
  | make user => exact request_of_placeholder hplaceholder memo user
  | record user =>
    rw [call, record_of_placeholder p hplaceholder, request_of_placeholder hplaceholder]
  | stat r =>
    show (p.stat _ r).2 = memo
    rw [stat_snd, record_of_placeholder p hplaceholder, request_of_placeholder hplaceholder]
  | join rs =>
    show (p.joinStats _ rs).2 = memo
    rw [joinStats_of_placeholder hplaceholder, requestAll_of_placeholder hplaceholder]

/-- Calls that are answered with placeholders leave nothing in the memo. -/
theorem run_of_placeholder (memo : Memo) (calls : List Call) : (p.run memo calls).2 = memo := by
  induction calls generalizing memo with
  | nil => rfl
  | cons c rest ih =>
    show (p.run (p.call memo c).2 rest).2 = memo
    rw [ih, call_of_placeholder hplaceholder]

variable [LawfulMonad m]

theorem statVia_of_placeholder (memo : Memo) (r : Request) :
    p.statVia ask memo r = pure (p.stat memo r) := by
  rw [statVia, recordVia, if_pos hplaceholder, pure_bind, stat, record_of_placeholder p hplaceholder]

/-- With placeholders nobody is asked. -/
theorem joinVia_of_placeholder (memo : Memo) (rs : List Request) :
    p.joinVia ask memo rs = pure (p.joinStats memo rs) := by
  induction rs generalizing memo with
  | nil => rfl
  | cons r rest ih =>
    rw [joinVia, statVia_of_placeholder hplaceholder, pure_bind, joinStats]
    rcases p.stat memo r with ⟨_ | value, memo⟩
    · rfl
    · simp only [ih, pure_bind]

/-- A call with placeholders awaits nobody. -/
theorem callVia_of_placeholder (memo : Memo) (c : Call) :
    p.callVia ask memo c = pure (p.call memo c) := by
  cases c with
  | make user => rfl
  | record user =>
    rw [callVia, recordVia, if_pos hplaceholder, pure_bind, call,
      record_of_placeholder p hplaceholder]
  | stat r => rw [callVia, statVia_of_placeholder hplaceholder, pure_bind, call]
  | join rs => rw [callVia, joinVia_of_placeholder hplaceholder, pure_bind, call]

/-- **Placeholders ask nobody**, whatever asking would do. -/
theorem runVia_of_placeholder (memo : Memo) (calls : List Call) :
    p.runVia ask memo calls = pure (p.run memo calls) := by
  induction calls generalizing memo with
  | nil => rfl
  | cons c rest ih =>
    rw [runVia, callVia_of_placeholder hplaceholder, pure_bind, run]
    simp only [ih, pure_bind]

end

/-! ## Calls of a new provider

A new provider has an empty memo, which goes with the empty list of users.  From there on everything
follows from the calls. -/

/-- **A memo shows only in how often the source is asked.**  For every provider and all calls of
it, with `outcome` the answers to them and the memo after them, and `asked` the users that the
source is asked for, in order:

1. noting the users changes nothing;
2. without placeholders, each call is answered as the source alone would answer it, nobody is asked
   for twice, those who are asked for are those whose record is awaited for some call, and the
   source is called once for each of them;
3. with placeholders, each call is answered by the source of placeholder records, and nobody is
   asked for. -/
theorem run_memoized (p : Provider) (calls : List Call) :
    let outcome := p.run .empty calls
    let asked := ((p.runVia (noted p.source) .empty calls).run []).2
    ((p.runVia (noted p.source) .empty calls).run []).1 = outcome ∧
    (p.usesPlaceholder = false →
      outcome.1 = calls.map p.source.answer ∧ asked.Nodup ∧
      (∀ user, user ∈ asked ↔ ∃ c ∈ calls, user ∈ p.source.awaited c) ∧
      outcome.2.fetches = asked.length) ∧
    (p.usesPlaceholder = true →
      outcome.1 = calls.map Source.placeholder.answer ∧ asked = [] ∧ outcome.2.fetches = 0) := by
  intro outcome asked
  have hanswers := run_fst (Keeps.refl p .empty) calls
  cases hplaceholder : p.usesPlaceholder with
  | false =>
    have hsource : ¬p.usesPlaceholder = true := by simp [hplaceholder]
    have hleads := runVia_leads hsource (.refl p .empty) .empty calls
    rw [answering_eq hsource] at hanswers
    refine ⟨hleads.result_eq, fun _ => ⟨hanswers, hleads.tracks.nodup, fun user => ?_, ?_⟩, nofun⟩
    · rw [hleads.mem_iff, List.mem_flatMap]
      simp
    · rw [← hleads.tracks.fetches]
  | true =>
    have hrun : p.runVia (noted p.source) .empty calls = pure outcome :=
      runVia_of_placeholder hplaceholder .empty calls
    have hasked : asked = [] := congrArg (fun x => (x.run []).2) hrun
    rw [answering, if_pos hplaceholder] at hanswers
    have hmemo : outcome.2 = .empty := run_of_placeholder hplaceholder .empty calls
    refine ⟨congrArg (fun x => (x.run []).1) hrun, nofun, fun _ => ⟨hanswers, hasked, ?_⟩⟩
    rw [hmemo]
    rfl

/-- A source that knows everybody but one. -/
def haunted : Source where
  fetch user := if user = "ghost" then .error (.unknownUser user) else guarded.fetch user
  needsToken := true

/-- Of the three users for whom there are requests, one is never asked for: the join fails before
its request is awaited. -/
theorem haunted_memoized :
    let p : Provider := ⟨haunted, some "b", false⟩
    let calls := [.make "c", .stat ⟨"a", "stars"⟩,
      .join [⟨"a", "commits"⟩, ⟨"ghost", "stars"⟩, ⟨"c", "stars"⟩], .record "ghost"]
    p.usesPlaceholder = false ∧ (p.run .empty calls).1 = calls.map haunted.answer ∧
      ((p.runVia (noted haunted) .empty calls).run []).2 = ["a", "ghost"] ∧
      (p.run .empty calls).2.fetches = 2 := by
  intro p calls
  have hasked : ((p.runVia (noted haunted) .empty calls).run []).2 = ["a", "ghost"] := by rfl
  obtain ⟨-, hmemoized, -⟩ := run_memoized p calls
  obtain ⟨hanswers, -, -, hfetches⟩ := hmemoized rfl
  refine ⟨rfl, hanswers, hasked, hfetches.trans ?_⟩
  exact congrArg List.length hasked

end Provider
end Stats
end Frontispiece
