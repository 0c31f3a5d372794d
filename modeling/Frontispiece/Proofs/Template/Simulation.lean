import Frontispiece.Proofs.Computation
import Frontispiece.Proofs.Json.Fields
import Frontispiece.Proofs.Template.Direct

/-!
# Two evaluations side by side

A template can be evaluated over different outputs.  Here two evaluations of one template run side
by side, and stay in agreement as long as neither stops.  When they part, one of them has stopped
for good, and the other will not make up for it: `Comparison` names the ways in which that can be.

## What is here

* `Follows` — the relation of two computations that run side by side, with a lemma for each way to
  put computations together.
* `Comparison.Fits` — what two outputs must do alike: write a text, place a value, and fetch a
  statistic that is placed at once.
* `renderWithin_follows` — then whole direct templates run side by side, by induction on the
  elements and on the depth of partials.

Both evaluations are of the same template, so they go through the same elements in the same order.
What may differ is how they end: a page stops at a missing statistic, while a draft goes on and
fails when it is settled.  `Comparison` makes this possible by a way to be lost for each side, which
is kept by whatever that side still does.
-/

set_option autoImplicit false

namespace Frontispiece
namespace Template

variable {σ τ α β : Type}

/-- All partials that are defined are direct. -/
def Progress.IsDirect (p : Progress σ) : Prop :=
  ∀ entry ∈ p.partials, Element.areDirect entry.2 = true

theorem Progress.IsDirect.of_eq {p : Progress σ} (h : p.IsDirect) {q : Progress τ}
    (heq : q.partials = p.partials) : q.IsDirect := by
  rw [IsDirect, heq]
  exact h

/-- All bodies that were handed to partials are direct. -/
def Scope.IsDirect (scope : Scope) : Prop :=
  ∀ body ∈ scope.bodies, Element.areDirect body = true

theorem Scope.IsDirect.of_eq {scope inner : Scope} (h : scope.IsDirect)
    (heq : inner.bodies = scope.bodies) : inner.IsDirect := by
  rw [IsDirect, heq]
  exact h

/-- Whatever a computation does, `P` stays true of what was written. -/
def Preserves (P : σ → Prop) (x : Eval σ α) : Prop :=
  ∀ p : Progress σ, p.IsDirect → P p.written → (x.run p).2.IsDirect ∧ P (x.run p).2.written

/-- How what two evaluations wrote is compared. -/
structure Comparison (σ τ : Type) where
  /-- Both wrote the same. -/
  Agree : σ → τ → Prop
  /-- The first placed something that it will fail for in the end. -/
  Doomed : σ → Prop
  /-- The second went on where the first could not. -/
  Beyond : τ → Prop
  /-- The second refused something that the first may take. -/
  Misled : τ → Prop

namespace Comparison

variable (c : Comparison σ τ)

/-- Both evaluations stand at the same place. -/
structure Meet (p : Progress σ) (q : Progress τ) : Prop where
  agree : c.Agree p.written q.written
  partials : p.partials = q.partials
  direct : p.IsDirect

/-- How two computations that ran side by side have ended. -/
inductive Outcome : Except Fault α × Progress σ → Except Fault α × Progress τ → Prop where
  | meet {p : Progress σ} {q : Progress τ} (a : α) : c.Meet p q → Outcome (.ok a, p) (.ok a, q)
  /-- The first stopped. -/
  | beyond {fault : Fault} {p : Progress σ} {result : Except Fault α × Progress τ} :
    result.2.IsDirect → c.Beyond result.2.written → Outcome (.error fault, p) result
  /-- The second stopped, and the first does not get to an end. -/
  | lost {fault : Fault} {result : Except Fault α × Progress σ} {q : Progress τ} :
    (∃ fault, result.1 = .error fault) ∨ (result.2.IsDirect ∧ c.Doomed result.2.written)
      ∨ c.Misled q.written → Outcome result (.error fault, q)

/-- Two computations that run side by side. -/
structure Follows (x : Eval σ α) (y : Eval τ α) : Prop where
  outcome : ∀ p q, c.Meet p q → c.Outcome (x.run p) (y.run q)
  doomed : Preserves c.Doomed x
  beyond : Preserves c.Beyond y

end Comparison

/-- A computation after another runs from where that one came to, if it got to an end. -/
theorem Eval.run_bind (x : Eval σ α) (f : α → Eval σ β) (p : Progress σ) :
    (x >>= f).run p = match x.run p with
      | (.ok a, p) => (f a).run p
      | (.error fault, p) => (.error fault, p) := by
  rcases hfirst : x.run p with ⟨_ | _, p₁⟩
  · exact Computation.run_bind_error hfirst f
  · exact Computation.run_bind_ok hfirst f

/-! ## What stays true

When one of two evaluations has stopped, the other goes on alone.  What it writes from there on is
of no interest, as long as it cannot get out of having parted, and this is a property of one
evaluation. -/

namespace Preserves

variable {P : σ → Prop}

theorem pureResult (result : Except Fault α) : Preserves P (pureResult result : Eval σ α) := by
  intro p hdirect h
  cases result <;> exact ⟨hdirect, h⟩

theorem bind {x : Eval σ α} {f : α → Eval σ β} (hx : Preserves P x)
    (hf : ∀ a, Preserves P (f a)) : Preserves P (x >>= f) := by
  intro p hdirect h
  have hp := hx p hdirect h
  rw [Eval.run_bind]
  generalize x.run p = first at hp ⊢
  obtain ⟨result, q⟩ := first
  cases result with
  | error fault => exact hp
  | ok a => exact hf a q hp.1 hp.2

/-- Looking at the partials that are defined. -/
theorem partials {f : Fields (List Element) → Eval σ β}
    (hf : ∀ partials, (∀ entry ∈ partials, Element.areDirect entry.2 = true) →
      Preserves P (f partials)) : Preserves P (do let p ← get; f p.partials) :=
  fun p hdirect h => hf p.partials hdirect p hdirect h

theorem changePartials {change : Fields (List Element) → Fields (List Element)}
    (hchange : ∀ partials, (∀ entry ∈ partials, Element.areDirect entry.2 = true) →
      ∀ entry ∈ change partials, Element.areDirect entry.2 = true) :
    Preserves P (modify fun p => { p with partials := change p.partials }) :=
  fun p hdirect h => ⟨hchange p.partials hdirect, h⟩

end Preserves

/-! ## Outputs

An output is three operations.  For direct templates they come in two forms only: text is written,
and a statistic is fetched and then placed. -/

/-- The text that is written for a text at a place. -/
def Scope.lines (scope : Scope) (text : String) : String :=
  match scope.indent with
  | some indent => String.ofList (indented indent.toList text.toList)
  | none => text

theorem write_run (out : Output σ) (scope : Scope) (text : String) (p : Progress σ) :
    (write out scope text).run p
      = (.ok (), { p with written := out.write (scope.lines text) p.written }) := rfl

theorem fetch_run (out : Output σ) (request : Stats.Request) (p : Progress σ) :
    (fetch out request).run p = (.ok (out.fetch request p.written).1,
      { p with written := (out.fetch request p.written).2 }) := rfl

theorem place_run (out : Output σ) (value : Json) (p : Progress σ) :
    (place out value).run p = ((out.place value p.written).1,
      { p with written := (out.place value p.written).2 }) := by
  show (pureResult (out.place value p.written).1 : Eval σ Unit).run
    { p with written := (out.place value p.written).2 } = _
  cases (out.place value p.written).1 <;> rfl

/-- A statistic that is fetched and, when nothing is wrong with other arguments, placed. -/
def fetchAndPlace (out : Output σ) (request : Stats.Request)
    (others : Except Fault (List Found × List (String × Found))) : Eval σ Unit := do
  let value ← fetch out request
  let _ ← pureResult others
  place out value

theorem fetchAndPlace_run (out : Output σ) (request : Stats.Request)
    (others : List Found × List (String × Found)) (p : Progress σ) :
    (fetchAndPlace out request (.ok others)).run p
      = ((out.place (out.fetch request p.written).1 (out.fetch request p.written).2).1,
        { p with written :=
          (out.place (out.fetch request p.written).1 (out.fetch request p.written).2).2 }) := by
  rw [fetchAndPlace, Eval.run_bind, fetch_run]
  exact place_run out _ _

theorem fetchAndPlace_fault (out : Output σ) (request : Stats.Request) (fault : Fault)
    (p : Progress σ) : (fetchAndPlace out request (.error fault)).run p
      = (.error fault, { p with written := (out.fetch request p.written).2 }) := rfl

/-- Whatever is done with an output, `P` stays true. -/
structure Output.Keeps (out : Output σ) (P : σ → Prop) : Prop where
  write : ∀ text s, P s → P (out.write text s)
  fetch : ∀ request s, P s → P (out.fetch request s).2
  place : ∀ value s, P s → P (out.place value s).2

namespace Preserves

variable {out : Output σ} {P : σ → Prop}

theorem write (h : out.Keeps P) (scope : Scope) (text : String) :
    Preserves P (write out scope text) :=
  fun p hdirect hp => ⟨hdirect, h.write _ p.written hp⟩

theorem fetch (h : out.Keeps P) (request : Stats.Request) : Preserves P (fetch out request) :=
  fun p hdirect hp => ⟨hdirect, h.fetch request p.written hp⟩

theorem place (h : out.Keeps P) (value : Json) : Preserves P (place out value) := by
  intro p hdirect hp
  rw [place_run]
  exact ⟨hdirect, h.place value p.written hp⟩

theorem fetchAndPlace (h : out.Keeps P) (request : Stats.Request)
    (others : Except Fault (List Found × List (String × Found))) :
    Preserves P (fetchAndPlace out request others) :=
  (fetch h request).bind fun value => (pureResult others).bind fun _ => place h value

end Preserves

/-! ## Putting computations together

One step after another, a loop, a result that needs no output: from these all evaluations are made.
In each of them the second part is run only if the first gets to its end. -/

namespace Comparison

variable {c : Comparison σ τ}

/-- What two outputs do alike. -/
structure Fits (c : Comparison σ τ) (out : Output σ) (out' : Output τ) : Prop where
  write : ∀ scope text, c.Follows (write out scope text) (write out' scope text)
  place : ∀ value, c.Follows (place out value) (place out' value)
  fetch : ∀ request others,
    c.Follows (fetchAndPlace out request others) (fetchAndPlace out' request others)

namespace Follows

theorem pureResult (result : Except Fault α) :
    c.Follows (pureResult result : Eval σ α) (pureResult result) where
  outcome p q h := by
    cases result with
    | error fault => exact .lost (.inl ⟨fault, rfl⟩)
    | ok a => exact .meet a h
  doomed := .pureResult result
  beyond := .pureResult result

/-- **One step after another.**  Where the first steps part, the later ones do not matter. -/
theorem bind {x : Eval σ α} {y : Eval τ α} {f : α → Eval σ β} {g : α → Eval τ β}
    (h : c.Follows x y) (hf : ∀ a, c.Follows (f a) (g a)) : c.Follows (x >>= f) (y >>= g) where
  doomed := h.doomed.bind fun a => (hf a).doomed
  beyond := h.beyond.bind fun a => (hf a).beyond
  outcome p q hpq := by
    have hout := h.outcome p q hpq
    rw [Eval.run_bind, Eval.run_bind]
    generalize x.run p = first at hout ⊢
    generalize y.run q = second at hout ⊢
    cases hout with
    | meet a h => exact (hf a).outcome _ _ h
    | beyond hdirect hbeyond =>
      obtain ⟨result, q⟩ := second
      cases result with
      | error fault => exact .beyond hdirect hbeyond
      | ok a =>
        obtain ⟨hdirect, hbeyond⟩ := (hf a).beyond q hdirect hbeyond
        exact .beyond hdirect hbeyond
    | lost hlost =>
      refine .lost ?_
      obtain ⟨result, p⟩ := first
      rcases hlost with ⟨fault, rfl⟩ | ⟨hdirect, hdoomed⟩ | hmisled
      · exact .inl ⟨fault, rfl⟩
      · cases result with
        | error fault => exact .inl ⟨fault, rfl⟩
        | ok a => exact .inr (.inl ((hf a).doomed p hdirect hdoomed))
      · exact .inr (.inr hmisled)

/-- A computation that is the same in every evaluation, before two that run side by side. -/
theorem settled {x : (σ : Type) → Output σ → Eval σ α} (hx : Settled x) (out : Output σ)
    (out' : Output τ) {f : α → Eval σ β} {g : α → Eval τ β} (hf : ∀ a, c.Follows (f a) (g a)) :
    c.Follows (x σ out >>= f) (x τ out' >>= g) := by
  obtain ⟨result, hresult⟩ := hx
  rw [hresult, hresult]
  exact (pureResult result).bind hf

/-- A result that does not touch the state, and what is done with it when there is one. -/
theorem next (result : Except Fault α) {f : α → Eval σ β} {g : α → Eval τ β}
    (hf : ∀ a, result = .ok a → c.Follows (f a) (g a)) :
    c.Follows (Template.pureResult result >>= f) (Template.pureResult result >>= g) := by
  rw [pureResult_bind, pureResult_bind]
  cases result with
  | error fault => exact pureResult (.error fault)
  | ok a => exact hf a rfl

/-- Looking at the partials that are defined. -/
theorem partials {f : Fields (List Element) → Eval σ β} {g : Fields (List Element) → Eval τ β}
    (hf : ∀ partials, (∀ entry ∈ partials, Element.areDirect entry.2 = true) →
      c.Follows (f partials) (g partials)) :
    c.Follows (do let p ← get; f p.partials) (do let q ← get; g q.partials) where
  doomed := .partials fun partials h => (hf partials h).doomed
  beyond := .partials fun partials h => (hf partials h).beyond
  outcome p q h := by
    show c.Outcome ((f p.partials).run p) ((g q.partials).run q)
    rw [← h.partials]
    exact (hf p.partials h.direct).outcome p q h

theorem changePartials {change : Fields (List Element) → Fields (List Element)}
    (hchange : ∀ partials, (∀ entry ∈ partials, Element.areDirect entry.2 = true) →
      ∀ entry ∈ change partials, Element.areDirect entry.2 = true) :
    c.Follows (modify fun p => { p with partials := change p.partials })
      (modify fun q => { q with partials := change q.partials }) where
  doomed := .changePartials hchange
  beyond := .changePartials hchange
  outcome _ _ h := .meet () ⟨h.agree, congrArg change h.partials, hchange _ h.direct⟩

theorem forM {f : α → Eval σ Unit} {g : α → Eval τ Unit} : ∀ {items : List α},
    (∀ a ∈ items, c.Follows (f a) (g a)) → c.Follows (items.forM f) (items.forM g)
  | [], _ => pureResult (.ok ())
  | a :: rest, h => by
    show c.Follows (f a >>= fun _ => rest.forM f) (g a >>= fun _ => rest.forM g)
    exact (h a List.mem_cons_self).bind fun _ =>
      forM fun b hb => h b (List.mem_cons_of_mem _ hb)

end Follows

/-! ## Templates

By induction on the elements of a direct template.  Its calls are either plain, and then the same on
both sides, or place a statistic, which is what `Fits` is about. -/

variable {out : Output σ} {out' : Output τ} (setting : Setting)

/-- What becomes of an answer in an element with the given bodies. -/
def carryOut (out : Output σ) (scope : Scope) (body : List Scope → Eval σ Unit)
    (opposite : Eval σ Unit) : Act → Eval σ Unit
  | .value value => write out scope (shown value)
  | .statistic request => do
    let value ← Template.fetch out request
    place out value
  | .place _ value => place out value
  | .body scopes => body scopes
  | .opposite => opposite

/-- An answer is carried out so that one evaluation follows the other, if the body and its opposite
do. -/
theorem carryOut_follows (h : c.Fits out out') (scope : Scope) {act : Act}
    {body : List Scope → Eval σ Unit} {body' : List Scope → Eval τ Unit} {opposite : Eval σ Unit}
    {opposite' : Eval τ Unit}
    (hbody : ∀ scopes, act = .body scopes → c.Follows (body scopes) (body' scopes))
    (hopposite : c.Follows opposite opposite') :
    c.Follows (carryOut out scope body opposite act) (carryOut out' scope body' opposite' act) := by
  cases act with
  | value value => exact h.write scope (shown value)
  | statistic request => exact h.fetch request (.ok ([], []))
  | place helper value => exact h.place value
  | body scopes => exact hbody scopes rfl
  | opposite => exact hopposite

/-- What a call that places a statistic comes to: the statistic is fetched and placed. -/
theorem placesStatistic_eq (scope : Scope) {call : Call} (hcall : call.placesStatistic = true)
    (names : List String) :
    ∃ (request : Except Fault Stats.Request)
      (others : Except Fault (List Found × List (String × Found))),
      ∀ (σ : Type) (out : Output σ) (k : Act → Eval σ Unit),
        (∀ helper value, k (.place helper value) = place out value) →
        (do
          let u ← evalCall setting out scope call names
          let act ← actOf setting scope u
          k act) = (do
          let request ← pureResult request
          fetchAndPlace out request others) := by
  obtain ⟨name, request, others, -, hname, heq⟩ :=
    evalCall_placesStatistic setting scope hcall names
  refine ⟨request, others, fun σ out k hk => ?_⟩
  have hanswer : ∀ value args named, answer setting scope ⟨name, .value value :: args, named, names⟩
      = .ok (.place name value) := by
    intro value args named
    rw [answer, hname]
    rfl
  simp only [heq, actOf_eq, hanswer, fetchAndPlace, bind_assoc, pure_bind, pureResult, hk]

/-- A direct call, and what becomes of its answer. -/
theorem call_follows (h : c.Fits out out') (scope : Scope) {call : Call}
    (hcall : call.isDirect = true) (names : List String) {k : Act → Eval σ Unit}
    {k' : Act → Eval τ Unit} (hk : ∀ helper value, k (.place helper value) = place out value)
    (hk' : ∀ helper value, k' (.place helper value) = place out' value)
    (hanswer : ∀ u act, answer setting scope u = .ok act → c.Follows (k act) (k' act)) :
    c.Follows
      (do
        let u ← evalCall setting out scope call names
        let act ← actOf setting scope u
        k act)
      (do
        let u ← evalCall setting out' scope call names
        let act ← actOf setting scope u
        k' act) := by
  rw [Call.isDirect, Bool.or_eq_true] at hcall
  rcases hcall with hplain | hplaces
  · refine .settled (evalCall_plain setting scope hplain names) out out' fun u => ?_
    rw [actOf_eq, actOf_eq]
    exact .next _ fun act hact => hanswer u act hact
  · obtain ⟨request, others, heq⟩ := placesStatistic_eq setting scope hplaces names
    rw [heq σ out k hk, heq τ out' k' hk']
    exact (Follows.pureResult request).bind fun request => h.fetch request others

/-- What holds of all partials and of a body holds of all when the body is defined as one. -/
theorem insert_of_all {P : List Element → Prop} {body : List Element} (hbody : P body)
    (name : String) (partials : Fields (List Element)) (h : ∀ entry ∈ partials, P entry.2) :
    ∀ entry ∈ Fields.insert name body partials, P entry.2 := by
  intro entry he
  rcases Fields.mem_insert he with rfl | he
  · exact hbody
  · exact h entry he

/-- A decorator looks at no output, so that it does the same on both sides. -/
theorem decorate_follows (out : Output σ) (out' : Output τ) (scope : Scope) {call : Call}
    (hcall : call.isPlain = true) {body : Option (List Element)}
    (hbody : ∀ elements ∈ body, Element.areDirect elements = true) :
    c.Follows (decorate setting out scope call body) (decorate setting out' scope call body) := by
  refine .settled (evalCall_plain setting scope hcall []) out out' fun u => ?_
  split
  · next body _ _ =>
    exact .changePartials
      (insert_of_all (P := fun body => Element.areDirect body = true) (hbody body rfl) _)
  · exact .pureResult (.error .evaluation)

/-- So do all decorators in a body. -/
theorem decorateAll_follows (out : Output σ) (out' : Output τ) (scope : Scope) :
    ∀ elements : List Element, Element.areDirect elements = true →
      c.Follows (decorateAll setting out scope elements) (decorateAll setting out' scope elements)
  | [], _ => .pureResult (.ok ())
  | e :: rest, h => by
    rw [Element.areDirect, Bool.and_eq_true] at h
    have ih := decorateAll_follows out out' scope rest h.2
    cases e with
    | decorator call body =>
      have hcall := h.1
      cases body with
      | none =>
        simp only [Element.isDirect] at hcall
        exact (decorate_follows setting out out' scope hcall (by simp)).bind fun _ => ih
      | some body =>
        simp only [Element.isDirect, Bool.and_eq_true] at hcall
        exact (decorate_follows setting out out' scope hcall.1 (by simpa using hcall.2)).bind
          fun _ => ih
    | _ => exact ih

/-- Puts in a partial of those that are defined, or the body that is handed to it. -/
def putIn (insert : Scope → List Element → Eval σ Unit) (scope : Scope) (u : Helper.Use)
    (indent : Option String) (handed : Option (List Element)) (partials : Fields (List Element)) :
    Eval σ Unit :=
  match partial? scope partials u.name <|> handed with
  | none => pure ()
  | some elements => do
    let inner ← Template.pureResult (partialScope scope u indent handed)
    insert inner elements
    modify fun after => { after with partials := partials }

/-- The scope inside a partial has the body that was handed to it in front of those outside. -/
theorem partialScope_bodies {scope inner : Scope} {u : Helper.Use} {indent : Option String}
    {handed : Option (List Element)} (h : partialScope scope u indent handed = .ok inner) :
    inner.bodies = handed.toList ++ scope.bodies := by
  simp only [partialScope] at h
  split at h
  · cases h
    rfl
  · obtain ⟨current, -, h⟩ := bind_eq_ok.1 h
    cases h
    rfl

section

variable {P : List Element → Prop} {scope : Scope} {handed : Option (List Element)}

/-- What holds of all bodies and partials holds of what is put in for a name. -/
theorem putIn_of_all (hscope : ∀ body ∈ scope.bodies, P body) (hhanded : ∀ body ∈ handed, P body)
    {partials : Fields (List Element)} (hpartials : ∀ entry ∈ partials, P entry.2) {name : String}
    {elements : List Element} (h : (partial? scope partials name <|> handed) = some elements) :
    P elements := by
  rw [Option.orElse_eq_orElse, Option.orElse_eq_or, Option.or_eq_some_iff] at h
  rcases h with hpartial | ⟨-, hbody⟩
  · rw [partial?] at hpartial
    split at hpartial
    · exact hscope elements (List.mem_of_getElem? hpartial)
    · exact hpartials _ (Fields.mem_of_get? hpartial)
  · exact hhanded elements hbody

/-- What holds of all bodies holds of those inside a partial. -/
theorem partialScope_of_all (hscope : ∀ body ∈ scope.bodies, P body)
    (hhanded : ∀ body ∈ handed, P body) {inner : Scope} {u : Helper.Use} {indent : Option String}
    (h : partialScope scope u indent handed = .ok inner) : ∀ body ∈ inner.bodies, P body := by
  intro body hbody
  rw [partialScope_bodies h, List.mem_append, Option.mem_toList] at hbody
  exact hbody.elim (hhanded body) (hscope body)

end

/-- What is put in is found among the same partials on both sides, and its scope is made from the
same values. -/
theorem putIn_follows {insert : Scope → List Element → Eval σ Unit}
    {insert' : Scope → List Element → Eval τ Unit}
    (hinsert : ∀ scope elements, scope.IsDirect → Element.areDirect elements = true →
      c.Follows (insert scope elements) (insert' scope elements))
    {scope : Scope} (hscope : scope.IsDirect) (u : Helper.Use) (indent : Option String)
    {handed : Option (List Element)} (hhanded : ∀ body ∈ handed, Element.areDirect body = true)
    {partials : Fields (List Element)}
    (hpartials : ∀ entry ∈ partials, Element.areDirect entry.2 = true) :
    c.Follows (putIn insert scope u indent handed partials)
      (putIn insert' scope u indent handed partials) := by
  rw [putIn, putIn]
  cases hfound : partial? scope partials u.name <|> handed with
  | none => exact .pureResult (.ok ())
  | some elements =>
    have helements := putIn_of_all hscope hhanded hpartials hfound
    refine .next _ fun inner hinner => ?_
    have hdirect : inner.IsDirect := partialScope_of_all hscope hhanded hinner
    exact (hinsert inner elements hdirect helements).bind fun _ =>
      .changePartials fun _ _ => hpartials

/-- The head of a direct call asks for no statistic. -/
theorem head_plain {call : Call} (h : call.isDirect = true) : call.head.isPlain = true := by
  rw [Call.isDirect, Bool.or_eq_true] at h
  rcases h with h | h
  · simp only [Call.isPlain, Bool.and_eq_true] at h
    exact h.1.1
  · simp only [Call.placesStatistic, Bool.and_eq_true] at h
    cases hhead : call.head with
    | call head args named => simp [hhead, Expr.writtenName?] at h
    | _ => rfl

mutual

/-- **A direct element runs side by side over two outputs**, if what is put in does. -/
theorem renderElement_follows (h : c.Fits out out')
    {insert : Scope → List Element → Eval σ Unit} {insert' : Scope → List Element → Eval τ Unit}
    (hinsert : ∀ scope elements, scope.IsDirect → Element.areDirect elements = true →
      c.Follows (insert scope elements) (insert' scope elements)) :
    ∀ (e : Element) (scope : Scope), scope.IsDirect → e.isDirect = true →
      c.Follows (renderElement setting out insert scope e)
        (renderElement setting out' insert' scope e)
  | .text text, scope, _, _ => h.write scope text
  | .comment, _, _, _ => .pureResult (.ok ())
  | .output call, scope, _, hcall => by
    refine .settled (nameOf_plain setting scope (head_plain hcall)) out out' fun name => ?_
    -- a value of this name, which is the same on both sides, or a call
    split
    · refine .settled (eval_plain setting scope call.head (head_plain hcall)) out out'
        fun found => ?_
      cases found with
      | missing => exact .pureResult (.ok ())
      | inData keys value => exact h.write scope _
      | value value => exact h.write scope _
    · exact call_follows setting h scope hcall [] (fun _ _ => rfl) (fun _ _ => rfl)
        fun u act _ => carryOut_follows h scope (fun _ _ => .pureResult (.ok ()))
          (.pureResult (.ok ()))
  | .block call names body inverse, scope, hscope, hdirect => by
    simp only [Element.isDirect, Bool.and_eq_true] at hdirect
    obtain ⟨⟨hcall, hbody⟩, hinverse⟩ := hdirect
    exact call_follows setting h scope hcall names (fun _ _ => rfl) (fun _ _ => rfl)
      fun u act hact => carryOut_follows h scope
        -- the scopes that a block goes through keep the bodies that are handed to it
        (fun scopes heq => .forM fun inner hinner =>
          renderAll_follows h hinsert body inner
            (hscope.of_eq (answer_bodies (heq ▸ hact) inner hinner)) hbody)
        (renderAll_follows h hinsert inverse scope hscope hinverse)
  | .decorator call none, scope, _, hcall =>
    decorate_follows setting out out' scope hcall (by simp)
  | .decorator call (some body), scope, _, hdirect => by
    simp only [Element.isDirect, Bool.and_eq_true] at hdirect
    exact decorate_follows setting out out' scope hdirect.1 (by simpa using hdirect.2)
  | .insertion call indent isBlock body, scope, hscope, hdirect => by
    simp only [Element.isDirect, Bool.and_eq_true] at hdirect
    have hhanded : ∀ handed ∈ (if isBlock then some body else none),
        Element.areDirect handed = true := by
      intro handed he
      split at he <;> cases he
      exact hdirect.2
    refine .settled (evalCall_plain setting scope hdirect.1 []) out out' fun u => ?_
    refine (decorateAll_follows setting out out' scope body hdirect.2).bind fun _ => ?_
    exact .partials fun partials hpartials =>
      putIn_follows hinsert hscope u indent hhanded hpartials

/-- Elements are evaluated one after the other. -/
theorem renderAll_follows (h : c.Fits out out')
    {insert : Scope → List Element → Eval σ Unit} {insert' : Scope → List Element → Eval τ Unit}
    (hinsert : ∀ scope elements, scope.IsDirect → Element.areDirect elements = true →
      c.Follows (insert scope elements) (insert' scope elements)) :
    ∀ (elements : List Element) (scope : Scope), scope.IsDirect →
      Element.areDirect elements = true →
      c.Follows (renderAll setting out insert scope elements)
        (renderAll setting out' insert' scope elements)
  | [], _, _, _ => .pureResult (.ok ())
  | e :: rest, scope, hscope, hdirect => by
    rw [Element.areDirect, Bool.and_eq_true] at hdirect
    exact (renderElement_follows h hinsert e scope hscope hdirect.1).bind fun _ =>
      renderAll_follows h hinsert rest scope hscope hdirect.2

end

/-- Partials of any depth run side by side. -/
theorem renderWithin_follows (h : c.Fits out out') (fuel : Nat) :
    ∀ scope elements, scope.IsDirect → Element.areDirect elements = true →
      c.Follows (renderWithin setting out fuel scope elements)
        (renderWithin setting out' fuel scope elements) := by
  induction fuel with
  | zero => exact fun _ _ _ _ => .pureResult (.error .evaluation)
  | succ fuel ih =>
    exact fun scope elements hscope hdirect =>
      renderAll_follows setting h ih elements scope hscope hdirect

end Comparison

end Template
end Frontispiece
