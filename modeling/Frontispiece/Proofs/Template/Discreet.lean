import Frontispiece.Proofs.Template.Apart
import Frontispiece.Proofs.Template.Twin

/-!
# Templates that do not look into handles

A handle holds the nonce of its pass, and a template that takes it out of there writes a text that
is another one in the next compilation.  A template is *discreet* when it has no way to that nonce:
it does not spell the key of a pass, and its loops do not go through what may be a handle.  It may
bind handles, hand them to partials, compare them, and look up their tickets.

Whether an expression may stand for a handle is found out from the text of the template.  A scope
is *open* when its blocks may hold handles: inside a block that was given one, and inside partials,
if any partial is put in from an open scope or is given a handle.

## What is here

* `Expr.mayHold` and `Template.isDiscreet` — the conditions.
* `RunTwin` — two evaluations that differ in the nonce of their pass, with a lemma for each way to
  put evaluations together.
* `eval_twin`, `renderElement_twin` — expressions and elements, by induction on the syntax.
* `compile_discreet` — a discreet template compiles to one text under every nonce.

The condition follows values through the template in the way types are followed through a program:
each expression either may stand for something with a nonce in it or not, and a few uses are
forbidden for those that may.  It is sound, and this is the theorem; that it is not complete does
not matter, as it is used to say which templates are safe.

The proof has two evaluations side by side and shows that they do not part.  They differ in values
that have nonces in them, but never in what is written, in what is chosen by a condition, or in how
often a loop is gone through.
-/

set_option autoImplicit false

namespace Frontispiece
namespace Template

open Deferred (Twin passKey)

/-! ## What templates may hold

The conditions go by the text of a template alone, so that they can be checked without data.  They
are too strict in some cases: an expression that may hold a handle need not. -/

namespace Expr

mutual

/-- Whether what an expression stands for may have nonces, where the blocks around it may have them
if they are `isOpen`. -/
def mayHold (isOpen : Bool) : Expr → Bool
  | .path p _ => isOpen && p.isRelative
  | .call head args _ =>
    match head.writtenName? with
    | some text => text == statisticName || (text == lookupName && firstMayHold isOpen args)
    | none => true
  | _ => false

/-- Whether what the first of expressions stands for may have nonces. -/
def firstMayHold (isOpen : Bool) : List Expr → Bool
  | [] => false
  | e :: _ => e.mayHold isOpen

end

/-- Whether what one of the arguments by name stands for may have nonces. -/
def namedMayHold (isOpen : Bool) (named : List (String × Expr)) : Bool :=
  named.any fun entry => entry.2.mayHold isOpen

/-- Whether a call may go through a value that has nonces. -/
def goesThrough (isOpen : Bool) (head : Expr) (args : List Expr) : Bool :=
  !head.writtenName?.any (· != eachName) && firstMayHold isOpen args

mutual

/-- Whether an expression does not get at nonces. -/
def isDiscreet (isOpen : Bool) : Expr → Bool
  | .name _ => true
  | .path p _ => !p.keys.contains passKey
  | .literal value => value.avoids passKey
  | .call head args named =>
    head.isDiscreet isOpen && areDiscreet isOpen args && areDiscreetNamed isOpen named &&
      !goesThrough isOpen head args

/-- Whether expressions do not get at nonces. -/
def areDiscreet (isOpen : Bool) : List Expr → Bool
  | [] => true
  | e :: rest => e.isDiscreet isOpen && areDiscreet isOpen rest

/-- Whether arguments by name do not get at nonces. -/
def areDiscreetNamed (isOpen : Bool) : List (String × Expr) → Bool
  | [] => true
  | (key, e) :: rest => key != passKey && e.isDiscreet isOpen && areDiscreetNamed isOpen rest

end

end Expr

/-- Whether a call does not get at nonces. -/
def Call.isDiscreet (isOpen : Bool) (call : Call) : Bool :=
  (Expr.call call.head call.args call.named).isDiscreet isOpen

namespace Element

mutual

/-- Whether an element does not get at nonces.  Partials are evaluated in open scopes only if the
scopes of partials are `shared`. -/
def isDiscreet (shared isOpen : Bool) : Element → Bool
  | .text _ => true
  | .comment => true
  | .output call => call.isDiscreet isOpen
  | .block call _ body inverse =>
    call.isDiscreet isOpen && areDiscreet shared (isOpen || Expr.firstMayHold isOpen call.args) body
      && areDiscreet shared isOpen inverse
  | .decorator call none => call.isDiscreet isOpen
  | .decorator call (some body) => call.isDiscreet isOpen && areDiscreet shared shared body
  | .insertion call _ _ body =>
    call.isDiscreet isOpen && areDiscreet shared shared body &&
      (shared || !(isOpen || Expr.namedMayHold isOpen call.named))

/-- Whether elements do not get at nonces. -/
def areDiscreet (shared isOpen : Bool) : List Element → Bool
  | [] => true
  | e :: rest => e.isDiscreet shared isOpen && areDiscreet shared isOpen rest

end

end Element

/-- **Whether a template does not get at nonces.** -/
def isDiscreet (template : Template) : Bool :=
  Element.areDiscreet false false template || Element.areDiscreet true false template

/-! ## Evaluations under two nonces

The two evaluations have the same state but for the nonce.  They go the same way as long as no value
that they look at has the nonce in it, and what they write is the same, since nonces are not
written. -/

variable {α β γ δ : Type} {a b : UInt64} {shared : Bool}

/-- A draft whose pass has another nonce. -/
def Draft.renonced (d : Draft) (nonce : UInt64) : Draft := { d with pass := { d.pass with nonce } }

/-- Two evaluations at the same place, of passes that differ in their nonce only. -/
structure ProgressTwin (a b : UInt64) (shared : Bool) (p q : Progress Draft) : Prop where
  nonce : p.written.pass.nonce = a
  written : q.written = p.written.renonced b
  partials : p.partials = q.partials
  discreet : ∀ entry ∈ p.partials, Element.areDiscreet shared shared entry.2 = true

/-- Where the first evaluation gets to an end, so does the second, and they are at the same place
with related values. -/
def RunTwin (a b : UInt64) (shared : Bool) (R : α → β → Prop) (x : Eval Draft α)
    (y : Eval Draft β) : Prop :=
  ∀ p q, ProgressTwin a b shared p q → ∀ v p', x.run p = (.ok v, p') →
    ∃ w q', y.run q = (.ok w, q') ∧ R v w ∧ ProgressTwin a b shared p' q'

namespace RunTwin

variable {R : α → β → Prop} {S : γ → δ → Prop}

/-- Results that are related lead to evaluations that are, as nothing is written. -/
theorem pureResult {x : Except Fault α} {y : Except Fault β} (h : Leads R x y) :
    RunTwin a b shared R (pureResult x) (pureResult y) := by
  intro p q hpq v p' hx
  cases x with
  | error fault => cases hx
  | ok v =>
    cases hx
    obtain ⟨w, rfl, hR⟩ := h v rfl
    exact ⟨w, q, rfl, hR, hpq⟩

theorem pure {v : α} {w : β} (h : R v w) :
    RunTwin a b shared R (Pure.pure v) (Pure.pure w) :=
  pureResult (.ok h)

theorem throw (fault : Fault) {y : Eval Draft β} :
    RunTwin a b shared R (MonadExcept.throw fault) y := by
  intro p q _ v p' hx
  cases hx

/-- One evaluation after another: the second is compared from wherever the first has got to. -/
theorem bind {x : Eval Draft α} {y : Eval Draft β} {f : α → Eval Draft γ} {g : β → Eval Draft δ}
    (h : RunTwin a b shared R x y) (hf : ∀ v w, R v w → RunTwin a b shared S (f v) (g w)) :
    RunTwin a b shared S (x >>= f) (y >>= g) := by
  intro p q hpq u p' hx
  have hfirst := h p q hpq
  rw [Eval.run_bind] at hx
  generalize x.run p = first at hfirst hx
  obtain ⟨result, p₁⟩ := first
  cases result with
  -- where the first evaluation stops there is nothing to show
  | error fault => cases hx
  | ok v =>
    obtain ⟨w, q₁, hy, hR, hpq₁⟩ := hfirst v p₁ rfl
    rw [Eval.run_bind, hy]
    exact hf v w hR p₁ q₁ hpq₁ u p' hx

/-- Looking at the partials that are defined. -/
theorem partials {f : Fields (List Element) → Eval Draft α}
    {g : Fields (List Element) → Eval Draft β}
    (h : ∀ partials, (∀ entry ∈ partials, Element.areDiscreet shared shared entry.2 = true) →
      RunTwin a b shared R (f partials) (g partials)) :
    RunTwin a b shared R (do let p ← get; f p.partials) (do let q ← get; g q.partials) := by
  intro p q hpq v p' hx
  show ∃ w q', (g q.partials).run q = _ ∧ _
  rw [← hpq.partials]
  exact h p.partials hpq.discreet p q hpq v p' hx

/-- Partials may be changed in the same manner on both sides, if those that are kept stay
discreet. -/
theorem changePartials {change : Fields (List Element) → Fields (List Element)}
    (h : ∀ partials, (∀ entry ∈ partials, Element.areDiscreet shared shared entry.2 = true) →
      ∀ entry ∈ change partials, Element.areDiscreet shared shared entry.2 = true) :
    RunTwin a b shared (fun _ _ => True)
      (modify fun p => { p with partials := change p.partials })
      (modify fun q => { q with partials := change q.partials }) := by
  intro p q hpq v p' hx
  cases hx
  exact ⟨(), _, rfl, trivial,
    ⟨hpq.nonce, hpq.written, congrArg change hpq.partials, h _ hpq.discreet⟩⟩

/-- What is done for each of several things, with related things on the two sides. -/
theorem forM {f : α → Eval Draft Unit} {g : β → Eval Draft Unit} {xs : List α} {ys : List β}
    (hitems : List.Forall₂ R xs ys)
    (h : ∀ x ∈ xs, ∀ y, R x y → RunTwin a b shared (fun _ _ => True) (f x) (g y)) :
    RunTwin a b shared (fun _ _ => True) (xs.forM f) (ys.forM g) := by
  induction hitems with
  | nil => exact pure trivial
  | @cons x y xs ys hfirst _ ih =>
    refine bind (h x List.mem_cons_self y hfirst) fun _ _ _ => ?_
    exact ih fun z hz => h z (List.mem_cons_of_mem _ hz)

/-! ## Steps

The three things that an output can be asked for.  Placing a handle looks at its nonce, and there
each pass finds its own. -/

variable {held : Bool} {s t : Scope} (provider : Stats.Provider)

/-- The same text is written on both sides, with the same indentation. -/
theorem write (hscope : ScopeTwin a b held s t) (text : String) :
    RunTwin a b shared (fun _ _ => True) (write (draftOutput provider) s text)
      (write (draftOutput provider) t text) := by
  intro p q hpq v p' hx
  have hlines : t.lines text = s.lines text := by rw [Scope.lines, Scope.lines, hscope.indent]
  cases hx
  refine ⟨(), _, write_run _ t text q, trivial, hpq.nonce, ?_, hpq.partials, hpq.discreet⟩
  rw [hpq.written, hlines]
  rfl

/-- A request gets the same ticket on both sides.  The handles are twins, and differ in the
nonce. -/
theorem fetch (request : Stats.Request) :
    RunTwin a b shared (Twin a b true) (fetch (draftOutput provider) request)
      (fetch (draftOutput provider) request) := by
  intro p q hpq v p' hx
  have hvalue := (Twin.handle hpq.nonce (congrArg (fun d => d.pass.nonce) hpq.written)
    p.written.pass.pending.length)
  cases hx
  refine ⟨_, _, fetch_run _ request q, ?_, hpq.nonce, ?_, hpq.partials, hpq.discreet⟩
  · rw [hpq.written] at hvalue ⊢
    exact hvalue
  · rw [hpq.written]
    rfl

/-- A pass with another nonce takes another value for the same ticket. -/
theorem place_renonced {d after : Draft} {x y : Json}
    (hticket : (d.renonced b).pass.ticketOf? y = d.pass.ticketOf? x)
    (h : (draftOutput provider).place x d = (.ok (), after)) :
    (draftOutput provider).place y (d.renonced b) = (.ok (), after.renonced b) ∧
      after.pass.nonce = d.pass.nonce := by
  simp only [draftOutput, Deferred.Pass.placeValue_eq, hticket] at h ⊢
  cases hfound : d.pass.ticketOf? x with
  | none =>
    rw [hfound] at h
    cases h
  | some ticket =>
    by_cases hlt : ticket < d.pass.pending.length
    · have hlt' : ticket < (d.renonced b).pass.pending.length := hlt
      simp only [hfound, if_pos hlt, Deferred.Pass.step_place] at h
      simp only [if_pos hlt', Deferred.Pass.step_place]
      cases h
      exact ⟨rfl, rfl⟩
    · simp only [hfound, if_neg hlt] at h
      cases h

/-- **Twins are placed alike.**  Each pass takes its own handle. -/
theorem place {x y : Json} (h : Twin a b held x y) :
    RunTwin a b shared (fun _ _ => True) (place (draftOutput provider) x)
      (place (draftOutput provider) y) := by
  intro p q hpq v p' hx
  have hticket : (p.written.renonced b).pass.ticketOf? y = p.written.pass.ticketOf? x :=
    (h.ticketOf? hpq.nonce rfl).symm
  rw [place_run] at hx
  obtain ⟨hok, rfl⟩ := Prod.mk.inj hx
  obtain ⟨hplace, hnonce⟩ := place_renonced provider hticket (Prod.ext hok rfl)
  rw [place_run, hpq.written, hplace]
  exact ⟨(), _, rfl, trivial, hnonce.trans hpq.nonce, rfl, hpq.partials, hpq.discreet⟩

end RunTwin

/-! ## Expressions

By induction on the expression.  A value in which there may be nonces is allowed to be handed on but
not to be gone through, and which values these are is what the conditions keep track of. -/

section

variable {setting : Setting} {provider : Stats.Provider} {isOpen : Bool} {s t : Scope}

/-- A head is known by its written name, if it has one. -/
def Expr.Calls (head : Expr) (name : String) : Prop :=
  ∀ text, head.writtenName? = some text → name = text

/-- A call by name is known to hold a handle from its name: a statistic always, and a look into a
value if that value may. -/
theorem mayHold_call {head : Expr} {name : String} (hname : head.Calls name) (args : List Expr)
    (named : List (String × Expr))
    (h : name = statisticName ∨ (name = lookupName ∧ Expr.firstMayHold isOpen args = true)) :
    (Expr.call head args named).mayHold isOpen = true := by
  rw [Expr.mayHold]
  cases hwritten : head.writtenName? with
  | none => rfl
  | some text =>
    rw [← hname text hwritten]
    simpa using h

theorem firstMayHold_of_discreet {head : Expr} {name : String} (hname : head.Calls name)
    {args : List Expr} (h : Expr.goesThrough isOpen head args = false) (heach : name = eachName) :
    Expr.firstMayHold isOpen args = false := by
  rw [Expr.goesThrough, Bool.and_eq_false_iff] at h
  refine h.resolve_left fun hother => ?_
  cases hwritten : head.writtenName? with
  | none => simp [hwritten] at hother
  | some text => simp [hwritten, ← hname text hwritten, heach] at hother

/-- The name of a call does not depend on nonces. -/
theorem nameOf_twin {x y : Eval Draft Found} {held : Bool} {head : Expr}
    (h : RunTwin a b shared (FoundTwin a b held) x y) :
    RunTwin a b shared (fun m n => m = n ∧ head.Calls m) (nameOf x head) (nameOf y head) := by
  have hwritten : ∀ name, head.writtenName? = some name → head.Calls name := by
    intro name hname text htext
    exact Option.some.inj (hname.symm.trans htext)
  cases head with
  | name text => exact .pure ⟨rfl, hwritten _ rfl⟩
  | path path text => exact .pure ⟨rfl, hwritten _ rfl⟩
  | literal value => exact .pure ⟨rfl, hwritten _ rfl⟩
  | call head args named =>
    refine h.bind fun v w hfound => .pure ⟨hfound.json.shown, ?_⟩
    rintro text ⟨⟩

/-- **What a call answers at the same place.** -/
theorem actOf_twin (hversion : setting.version ≠ passKey) (hscope : ScopeTwin a b isOpen s t)
    {head : Expr} {args : List Expr} (hthrough : Expr.goesThrough isOpen head args = false)
    {named : Bool} {u v : Helper.Use}
    (h : UseTwin a b (Expr.firstMayHold isOpen args) named u v) (hname : head.Calls u.name) :
    RunTwin a b shared
      (fun x y => ActTwin a b (u.name == lookupName && Expr.firstMayHold isOpen args)
        (isOpen || Expr.firstMayHold isOpen args) x y ∧ answer setting s u = .ok x)
      (actOf setting s u) (actOf setting t v) := by
  rw [actOf_eq, actOf_eq]
  refine .pureResult fun act hact => ?_
  obtain ⟨act', hact', htwin⟩ := answer_twin hversion hscope h
    (firstMayHold_of_discreet hname hthrough) act hact
  exact ⟨act', hact', htwin, hact⟩

/-- An answer that is used as a value: it holds a handle if the call may hold one. -/
theorem actValue_twin {held inner more : Bool} {x y : Act} (h : ActTwin a b held inner x y)
    (hle : held = true → more = true)
    (hstatistic : ∀ request, x = .statistic request → more = true) :
    RunTwin a b shared (FoundTwin a b more) (actValue (draftOutput provider) x)
      (actValue (draftOutput provider) y) := by
  cases h with
  | value h => exact .pure (.value (h.mono hle))
  | statistic request =>
    refine (RunTwin.fetch provider request).bind fun _ _ hvalue => .pure (.value ?_)
    exact hvalue.mono fun _ => hstatistic request rfl
  | place helper h => exact .throw _
  | body h => exact .pure (.value (.string (by decide)))
  | opposite => exact .pure (.value (.string (by decide)))

theorem keys_of_discreet {path : Path} {text : String}
    (h : (Expr.path path text).isDiscreet isOpen = true) : ∀ key ∈ path.keys, key ≠ passKey := by
  rintro key hmem rfl
  simp [Expr.isDiscreet, hmem] at h

mutual

/-- **Discreet expressions stand for twins.** -/
theorem eval_twin (hversion : setting.version ≠ passKey) (hscope : ScopeTwin a b isOpen s t) :
    ∀ e : Expr, e.isDiscreet isOpen = true →
      RunTwin a b shared (FoundTwin a b (e.mayHold isOpen))
        (eval setting (draftOutput provider) s e) (eval setting (draftOutput provider) t e)
  | .name _, _ => .pure .missing
  | .path _ _, h => .pureResult (hscope.resolve (keys_of_discreet h))
  | .literal value, h => .pure (.value (.of_avoids h))
  | .call head args named, h => by
    simp only [Expr.isDiscreet, Bool.and_eq_true, Bool.not_eq_true'] at h
    obtain ⟨⟨⟨hhead, hargs⟩, hnamed⟩, hthrough⟩ := h
    rw [eval, eval]
    refine (nameOf_twin (eval_twin hversion hscope head hhead)).bind fun name _ hname => ?_
    refine (evalAll_twin hversion hscope args hargs).bind fun xs ys hargs => ?_
    refine (evalNamed_twin hversion hscope named hnamed).bind fun xs' ys' hnamed => ?_
    obtain ⟨rfl, hcalls⟩ := hname
    have huse : UseTwin a b (Expr.firstMayHold isOpen args) (Expr.namedMayHold isOpen named)
        ⟨name, xs, xs', []⟩ ⟨name, ys, ys', []⟩ := ⟨rfl, hargs, hnamed.1, hnamed.2, rfl⟩
    refine (actOf_twin hversion hscope hthrough huse hcalls).bind fun act _ hact =>
      actValue_twin hact.1 (fun hheld => ?_) fun request heq => ?_
    · rw [Bool.and_eq_true, beq_iff_eq] at hheld
      exact mayHold_call hcalls args named (.inr hheld)
    · exact mayHold_call hcalls args named (.inl (answer_statistic (heq ▸ hact.2)))

/-- Arguments are evaluated one after the other, and of their values only the first may be a
handle. -/
theorem evalAll_twin (hversion : setting.version ≠ passKey) (hscope : ScopeTwin a b isOpen s t) :
    ∀ args : List Expr, Expr.areDiscreet isOpen args = true →
      RunTwin a b shared (ArgsTwin a b (Expr.firstMayHold isOpen args))
        (evalAll setting (draftOutput provider) s args)
        (evalAll setting (draftOutput provider) t args)
  | [], _ => .pure .nil
  | e :: rest, h => by
    rw [Expr.areDiscreet, Bool.and_eq_true] at h
    rw [evalAll, evalAll]
    exact (eval_twin hversion hscope e h.1).bind fun _ _ hfound =>
      (evalAll_twin hversion hscope rest h.2).bind fun _ _ hothers =>
        .pure (.cons hfound hothers.all)

/-- Arguments by name have their names in the template, where none is the key of the pass. -/
theorem evalNamed_twin (hversion : setting.version ≠ passKey) (hscope : ScopeTwin a b isOpen s t) :
    ∀ named : List (String × Expr), Expr.areDiscreetNamed isOpen named = true →
      RunTwin a b shared
        (fun xs ys => List.Forall₂ (Named (FoundTwin a b (Expr.namedMayHold isOpen named))) xs ys ∧
          ∀ entry ∈ xs, entry.1 ≠ passKey)
        (evalNamed setting (draftOutput provider) s named)
        (evalNamed setting (draftOutput provider) t named)
  | [], _ => .pure ⟨.nil, by simp⟩
  | (name, e) :: rest, h => by
    rw [Expr.areDiscreetNamed, Bool.and_eq_true, Bool.and_eq_true, bne_iff_ne] at h
    obtain ⟨⟨hname, he⟩, hrest⟩ := h
    rw [evalNamed, evalNamed]
    refine (eval_twin hversion hscope e he).bind fun _ _ hfound =>
      (evalNamed_twin hversion hscope rest hrest).bind fun _ _ hothers => .pure ⟨?_, ?_⟩
    · have hhead : e.mayHold isOpen = true → Expr.namedMayHold isOpen ((name, e) :: rest) = true :=
        fun h => by simp [Expr.namedMayHold, h]
      have htail : Expr.namedMayHold isOpen rest = true →
          Expr.namedMayHold isOpen ((name, e) :: rest) = true := fun h => by
        rw [Expr.namedMayHold, List.any_cons, Bool.or_eq_true]
        exact .inr h
      exact .cons ⟨rfl, hfound.mono hhead⟩
        (hothers.1.imp fun _ _ hentry => ⟨hentry.1, hentry.2.mono htail⟩)
    · exact List.forall_mem_cons.2 ⟨hname, hothers.2⟩

end

/-- A discreet call is made with twins. -/
theorem evalCall_twin (hversion : setting.version ≠ passKey) (hscope : ScopeTwin a b isOpen s t)
    {call : Call} (h : call.isDiscreet isOpen = true) (names : List String) :
    RunTwin a b shared
      (fun u v => UseTwin a b (Expr.firstMayHold isOpen call.args)
        (Expr.namedMayHold isOpen call.named) u v ∧ call.head.Calls u.name)
      (evalCall setting (draftOutput provider) s call names)
      (evalCall setting (draftOutput provider) t call names) := by
  simp only [Call.isDiscreet, Expr.isDiscreet, Bool.and_eq_true] at h
  obtain ⟨⟨⟨hhead, hargs⟩, hnamed⟩, -⟩ := h
  refine (nameOf_twin (eval_twin hversion hscope call.head hhead)).bind fun _ _ hname =>
    (evalAll_twin hversion hscope call.args hargs).bind fun _ _ hargs =>
      (evalNamed_twin hversion hscope call.named hnamed).bind fun _ _ hnamed => .pure ?_
  exact ⟨⟨hname.1, hargs, hnamed.1, hnamed.2, rfl⟩, hname.2⟩

/-- What a discreet call answers, and what becomes of it. -/
theorem call_twin (hversion : setting.version ≠ passKey) (hscope : ScopeTwin a b isOpen s t)
    {call : Call} (h : call.isDiscreet isOpen = true) (names : List String)
    {k k' : Act → Eval Draft Unit}
    (hk : ∀ u x y, answer setting s u = .ok x →
      ActTwin a b true (isOpen || Expr.firstMayHold isOpen call.args) x y →
        RunTwin a b shared (fun _ _ => True) (k x) (k' y)) :
    RunTwin a b shared (fun _ _ => True)
      (do
        let u ← evalCall setting (draftOutput provider) s call names
        let act ← actOf setting s u
        k act)
      (do
        let u ← evalCall setting (draftOutput provider) t call names
        let act ← actOf setting t u
        k' act) := by
  have hthrough : Expr.goesThrough isOpen call.head call.args = false := by
    simp only [Call.isDiscreet, Expr.isDiscreet, Bool.and_eq_true, Bool.not_eq_true'] at h
    exact h.2
  refine (evalCall_twin hversion hscope h names).bind fun u _ huse =>
    (actOf_twin hversion hscope hthrough huse.1 huse.2).bind fun x y hact => ?_
  exact hk u x y hact.2 (hact.1.mono fun _ => rfl)

/-! ## Elements

The bodies that are handed to partials are evaluated later, in scopes that may be open.  So discreet
elements are judged with all scopes of partials in view. -/

/-- All bodies that were handed to partials are discreet. -/
def Scope.IsDiscreet (shared : Bool) (scope : Scope) : Prop :=
  ∀ body ∈ scope.bodies, Element.areDiscreet shared shared body = true

/-- An answer is carried out alike on both sides, if what it goes through and its opposite are. -/
theorem carryOut_twin (hscope : ScopeTwin a b isOpen s t) {held inner : Bool} {x y : Act}
    (h : ActTwin a b held inner x y) {body body' : List Scope → Eval Draft Unit}
    {opposite opposite' : Eval Draft Unit}
    (hbody : ∀ scopes scopes', x = .body scopes →
      List.Forall₂ (ScopeTwin a b inner) scopes scopes' →
        RunTwin a b shared (fun _ _ => True) (body scopes) (body' scopes'))
    (hopposite : RunTwin a b shared (fun _ _ => True) opposite opposite') :
    RunTwin a b shared (fun _ _ => True)
      (Comparison.carryOut (draftOutput provider) s body opposite x)
      (Comparison.carryOut (draftOutput provider) t body' opposite' y) := by
  cases h with
  | value h =>
    rw [Comparison.carryOut, Comparison.carryOut, h.shown]
    exact .write provider hscope _
  | statistic request =>
    exact (RunTwin.fetch provider request).bind fun _ _ hvalue => .place provider hvalue
  | place helper h => exact .place provider h
  | body h => exact hbody _ _ rfl h
  | opposite => exact hopposite

/-- A text as the first argument is the same in both calls. -/
theorem first_string {held : Bool} {xs ys : List Found} (h : ArgsTwin a b held xs ys)
    {text : String} (hfirst : (xs.head?).map Found.json = some (.string text)) :
    (ys.head?).map Found.json = some (.string text) := by
  cases h with
  | nil => cases hfirst
  | @cons x y _ _ hfound _ =>
    have htwin := hfound.json
    rw [List.head?_cons, Option.map_some] at hfirst ⊢
    rw [Option.some.inj hfirst] at htwin
    generalize y.json = value at htwin ⊢
    cases htwin
    rfl

/-- A decorator defines the same partial on both sides, with a body that is discreet. -/
theorem decorate_twin (hversion : setting.version ≠ passKey) (hscope : ScopeTwin a b isOpen s t)
    {call : Call} (h : call.isDiscreet isOpen = true) {body : Option (List Element)}
    (hbody : ∀ elements ∈ body, Element.areDiscreet shared shared elements = true) :
    RunTwin a b shared (fun _ _ => True) (decorate setting (draftOutput provider) s call body)
      (decorate setting (draftOutput provider) t call body) := by
  refine (evalCall_twin hversion hscope h []).bind fun u v huse => ?_
  split
  · next body hname hfirst =>
    rw [← huse.1.name, hname, first_string huse.1.args hfirst]
    exact .changePartials (Comparison.insert_of_all
      (P := fun body => Element.areDiscreet shared shared body = true) (hbody body rfl) _)
  · exact .throw _

/-- The decorators among discreet elements. -/
theorem decorateAll_twin (hversion : setting.version ≠ passKey)
    (hscope : ScopeTwin a b shared s t) : ∀ elements : List Element,
      Element.areDiscreet shared shared elements = true →
        RunTwin a b shared (fun _ _ => True)
          (decorateAll setting (draftOutput provider) s elements)
          (decorateAll setting (draftOutput provider) t elements)
  | [], _ => .pure trivial
  | e :: rest, h => by
    rw [Element.areDiscreet, Bool.and_eq_true] at h
    have ih := decorateAll_twin hversion hscope rest h.2
    cases e with
    | decorator call body =>
      have hcall := h.1
      cases body with
      | none =>
        simp only [Element.isDiscreet] at hcall
        exact (decorate_twin hversion hscope hcall (by simp)).bind fun _ _ _ => ih
      | some body =>
        simp only [Element.isDiscreet, Bool.and_eq_true] at hcall
        exact (decorate_twin hversion hscope hcall.1 (by simpa using hcall.2)).bind
          fun _ _ _ => ih
    | _ => exact ih

/-- What is put in is evaluated in scopes that may be open if the partials are `shared`, and only
then. -/
theorem putIn_twin {insert : Scope → List Element → Eval Draft Unit}
    (hinsert : ∀ s t elements, ScopeTwin a b shared s t → s.IsDiscreet shared →
      Element.areDiscreet shared shared elements = true →
        RunTwin a b shared (fun _ _ => True) (insert s elements) (insert t elements))
    (hscope : ScopeTwin a b isOpen s t) (hbodies : s.IsDiscreet shared) {held named : Bool}
    {u v : Helper.Use} (h : UseTwin a b held named u v)
    (hle : (isOpen || named) = true → shared = true) (indent : Option String)
    {handed : Option (List Element)}
    (hhanded : ∀ body ∈ handed, Element.areDiscreet shared shared body = true)
    {partials : Fields (List Element)}
    (hpartials : ∀ entry ∈ partials, Element.areDiscreet shared shared entry.2 = true) :
    RunTwin a b shared (fun _ _ => True) (Comparison.putIn insert s u indent handed partials)
      (Comparison.putIn insert t v indent handed partials) := by
  have hsame : partial? t partials v.name = partial? s partials u.name := by
    rw [partial?, partial?, hscope.bodies, hscope.depth, h.name]
  rw [Comparison.putIn, Comparison.putIn, hsame]
  cases hfound : partial? s partials u.name <|> handed with
  | none => exact .pure trivial
  | some elements =>
    have helements := Comparison.putIn_of_all hbodies hhanded hpartials hfound
    have hinner : Leads (fun x y => ScopeTwin a b shared x y ∧ x.IsDiscreet shared)
        (partialScope s u indent handed) (partialScope t v indent handed) := by
      intro x hx
      obtain ⟨y, hy, htwin⟩ := partialScope_twin hscope h indent handed x hx
      exact ⟨y, hy, htwin.mono hle, Comparison.partialScope_of_all hbodies hhanded hx⟩
    refine (RunTwin.pureResult hinner).bind fun x y hxy => ?_
    refine (hinsert x y elements hxy.1 hxy.2 helements).bind fun _ _ _ => ?_
    exact .changePartials fun _ _ => hpartials

mutual

/-- **Discreet elements are written alike**, if what is put in is. -/
theorem renderElement_twin (hversion : setting.version ≠ passKey)
    {insert : Scope → List Element → Eval Draft Unit}
    (hinsert : ∀ s t elements, ScopeTwin a b shared s t → s.IsDiscreet shared →
      Element.areDiscreet shared shared elements = true →
        RunTwin a b shared (fun _ _ => True) (insert s elements) (insert t elements)) :
    ∀ (e : Element) (isOpen : Bool) (s t : Scope), ScopeTwin a b isOpen s t →
      s.IsDiscreet shared → e.isDiscreet shared isOpen = true →
        RunTwin a b shared (fun _ _ => True)
          (renderElement setting (draftOutput provider) insert s e)
          (renderElement setting (draftOutput provider) insert t e)
  | .text text, _, _, _, hscope, _, _ => .write provider hscope text
  | .comment, _, _, _, _, _, _ => .pure trivial
  | .output call, isOpen, s, t, hscope, _, h => by
    -- without arguments, and if no helper has the name, the value of that name is written out
    have hhead : call.head.isDiscreet isOpen = true := by
      simp only [Element.isDiscreet, Call.isDiscreet, Expr.isDiscreet, Bool.and_eq_true] at h
      exact h.1.1.1
    have heval : RunTwin a b shared (FoundTwin a b (call.head.mayHold isOpen))
        (eval setting (draftOutput provider) s call.head)
        (eval setting (draftOutput provider) t call.head) :=
      eval_twin hversion hscope call.head hhead
    refine (nameOf_twin heval).bind fun name _ hname => ?_
    obtain ⟨rfl, -⟩ := hname
    split
    · refine heval.bind fun x y hfound => ?_
      -- both runs find something or nothing, and what they find is shown by one text
      have hshown := hfound.json.shown
      cases hfound with
      | missing => exact .pure trivial
      | inData keys _ => exact .write provider hscope _
      | value _ =>
        simp only [hshown]
        exact .write provider hscope _
    · exact call_twin hversion hscope h [] fun u x y _ hact =>
        carryOut_twin hscope hact (fun _ _ _ _ => .pure trivial) (.pure trivial)
  | .block call names body inverse, isOpen, s, t, hscope, hbodies, h => by
    simp only [Element.isDiscreet, Bool.and_eq_true] at h
    obtain ⟨⟨hcall, hbody⟩, hinverse⟩ := h
    refine call_twin hversion hscope hcall names fun u x y hanswer hact =>
      carryOut_twin hscope hact (fun scopes scopes' heq hscopes => ?_)
        (renderAll_twin hversion hinsert inverse isOpen s t hscope hbodies hinverse)
    refine .forM hscopes fun inner hinner inner' htwin =>
      renderAll_twin hversion hinsert body _ inner inner' htwin ?_ hbody
    -- what a helper goes through are scopes with the bodies of its own
    have hsame : inner.bodies = s.bodies := answer_bodies (heq ▸ hanswer) inner hinner
    rwa [Scope.IsDiscreet, hsame]
  | .decorator call none, _, _, _, hscope, _, h => decorate_twin hversion hscope h (by simp)
  | .decorator call (some body), _, _, _, hscope, _, h => by
    simp only [Element.isDiscreet, Bool.and_eq_true] at h
    exact decorate_twin hversion hscope h.1 (by simpa using h.2)
  | .insertion call indent isBlock body, isOpen, s, t, hscope, hbodies, h => by
    simp only [Element.isDiscreet, Bool.and_eq_true] at h
    obtain ⟨⟨hcall, hbody⟩, hshared⟩ := h
    have hle : (isOpen || Expr.namedMayHold isOpen call.named) = true → shared = true := by
      intro hopen
      simpa [hopen] using hshared
    -- the decorators in the body are carried out here, but their bodies are partials
    have hinner : ScopeTwin a b shared s t := hscope.mono fun hopen => hle (by simp [hopen])
    have hhanded : ∀ handed ∈ (if isBlock then some body else none),
        Element.areDiscreet shared shared handed = true := by
      intro handed he
      split at he <;> cases he
      exact hbody
    refine (evalCall_twin hversion hscope hcall []).bind fun u v huse => ?_
    refine (decorateAll_twin hversion hinner body hbody).bind fun _ _ _ => ?_
    exact .partials fun partials hpartials =>
      putIn_twin hinsert hscope hbodies huse.1 hle indent hhanded hpartials

/-- Elements are written one after the other. -/
theorem renderAll_twin (hversion : setting.version ≠ passKey)
    {insert : Scope → List Element → Eval Draft Unit}
    (hinsert : ∀ s t elements, ScopeTwin a b shared s t → s.IsDiscreet shared →
      Element.areDiscreet shared shared elements = true →
        RunTwin a b shared (fun _ _ => True) (insert s elements) (insert t elements)) :
    ∀ (elements : List Element) (isOpen : Bool) (s t : Scope), ScopeTwin a b isOpen s t →
      s.IsDiscreet shared → Element.areDiscreet shared isOpen elements = true →
        RunTwin a b shared (fun _ _ => True)
          (renderAll setting (draftOutput provider) insert s elements)
          (renderAll setting (draftOutput provider) insert t elements)
  | [], _, _, _, _, _, _ => .pure trivial
  | e :: rest, isOpen, s, t, hscope, hbodies, h => by
    rw [Element.areDiscreet, Bool.and_eq_true] at h
    exact (renderElement_twin hversion hinsert e isOpen s t hscope hbodies h.1).bind fun _ _ _ =>
      renderAll_twin hversion hinsert rest isOpen s t hscope hbodies h.2

end

/-- Discreet partials of any depth are written alike. -/
theorem renderWithin_twin (hversion : setting.version ≠ passKey) (fuel : Nat) :
    ∀ (isOpen : Bool) (s t : Scope) (elements : List Element), ScopeTwin a b isOpen s t →
      s.IsDiscreet shared → Element.areDiscreet shared isOpen elements = true →
        RunTwin a b shared (fun _ _ => True)
          (renderWithin setting (draftOutput provider) fuel s elements)
          (renderWithin setting (draftOutput provider) fuel t elements) := by
  induction fuel with
  | zero => exact fun _ _ _ _ _ _ _ => .throw _
  | succ fuel ih =>
    exact fun isOpen s t elements hscope hbodies h =>
      renderAll_twin hversion (ih shared) elements isOpen s t hscope hbodies h

end

/-! ## Whole compilations

After the evaluation the draft is settled, in which the nonce is looked at only to refuse a value.
So a discreet template compiles to one text, or to none under either nonce. -/

/-- A nonce is looked at only where a segment cannot be joined. -/
theorem joinSegments_ok {p q : Deferred.Pass α} {resolved : List (Nat × Json)} :
    ∀ {segments : List Deferred.Segment} {bytes : ByteArray},
      p.joinSegments resolved segments = .ok bytes → q.joinSegments resolved segments = .ok bytes
  | [], _, h => h
  | .text _ :: rest, _, h => by
    obtain ⟨after, hafter, h⟩ := bind_eq_ok.1 h
    rw [Deferred.Pass.joinSegments, joinSegments_ok hafter]
    exact h
  | .pending ticket :: rest, _, h => by
    rw [Deferred.Pass.joinSegments] at h ⊢
    cases hvalue : resolved.lookup ticket with
    | none =>
      rw [hvalue] at h
      cases h
    | some value =>
      rw [hvalue] at h
      obtain ⟨after, hafter, h⟩ := bind_eq_ok.1 h
      simp only [joinSegments_ok hafter]
      exact h

/-- **A draft settles to one text whatever the nonce of its pass.** -/
theorem settle_renonced {c : Compiler} {d : Draft} {text : String}
    (h : (settle c.provider d).1 = .ok text) (nonce : UInt64) :
    (settle c.provider (d.renonced nonce)).1 = .ok text := by
  rw [@settle_fst c d.desk d (.refl _ _), Deferred.Pass.settled] at h
  rw [@settle_fst c d.desk (d.renonced nonce) (.refl _ _), Deferred.Pass.settled]
  have hplaced : (d.renonced nonce).pass.placed = d.pass.placed := rfl
  rw [hplaced]
  cases hcollect : Deferred.Pass.collect (c.lookup d.desk) d.pass.placed with
  | error fault =>
    rw [hcollect] at h
    cases h
  | ok resolved =>
    simp only [hcollect] at h ⊢
    cases hjoin : d.pass.joinSegments resolved d.pass.segments with
    | error fault =>
      rw [hjoin] at h
      cases h
    | ok bytes =>
      rw [hjoin] at h
      have hother : (d.renonced nonce).pass.joinSegments resolved (d.renonced nonce).pass.segments
          = .ok bytes := joinSegments_ok hjoin
      rw [hother]
      exact h

/-- The scope of a whole template. -/
theorem scopeTwin_start {data : Json} (h : data.avoids passKey = true) :
    ScopeTwin a b false { data } { data } :=
  ⟨rfl, .of_avoids h, .cons ⟨rfl, .none, .nil, .nil⟩ .nil, rfl, rfl, rfl⟩

/-- What a discreet template compiles to under one nonce, it compiles to under any other. -/
theorem compile_ok_of_discreet {c : Compiler} {files : Files.FileTree} {source text : String}
    {data : Json} {desk : Desk} (hversion : c.version ≠ passKey)
    (hdata : data.avoids passKey = true)
    (htemplate : (ofText? source.toList).all isDiscreet = true) (first second : Nat → UInt64)
    (h : (compile { c with nonce := first } files source data desk).1 = .ok text) :
    (compile { c with nonce := second } files source data desk).1 = .ok text := by
  cases hread : ofText? source.toList with
  | none =>
    rw [compile, hread] at h
    cases h
  | some template =>
    have hdiscreet : ∃ shared, Element.areDiscreet shared false template = true := by
      simp only [hread, Option.all_some, isDiscreet, Bool.or_eq_true] at htemplate
      exact htemplate.elim (⟨false, ·⟩) (⟨true, ·⟩)
    obtain ⟨shared, hdiscreet⟩ := hdiscreet
    rw [compile_fst _ _ _ _ hread] at h ⊢
    have hrun : RunTwin (first desk.passes) (second desk.passes) shared (fun _ _ => True)
        (renderWithin ⟨c.version, c.time, c.static, files⟩ (draftOutput c.provider) maxDepth
          { data } template)
        (renderWithin ⟨c.version, c.time, c.static, files⟩ (draftOutput c.provider) maxDepth
          { data } template) :=
      renderWithin_twin hversion maxDepth false { data } { data } template (scopeTwin_start hdata)
        (by intro body hbody; cases hbody) hdiscreet
    have hend := hrun
      ⟨⟨.new (first desk.passes), { desk with passes := desk.passes + 1 }⟩, []⟩
      ⟨⟨.new (second desk.passes), { desk with passes := desk.passes + 1 }⟩, []⟩
      ⟨rfl, rfl, rfl, by intro entry he; cases he⟩
    generalize (renderWithin _ (draftOutput _) maxDepth _ _).run
      ⟨⟨.new (first desk.passes), _⟩, []⟩ = ended at h hend
    obtain ⟨_ | _, p⟩ := ended
    · cases h
    · obtain ⟨_, q, hq, -, hpq⟩ := hend () p rfl
      rw [hq]
      show (settle c.provider q.written).1 = .ok text
      rw [hpq.written]
      exact settle_renonced h (second desk.passes)

theorem ok_of_toOption {x : Except Fault α} {v : α} (h : x.toOption = some v) : x = .ok v := by
  cases x with
  | error fault => cases h
  | ok w => rw [Option.some.inj h]

/-- **No handle reaches the output of a discreet template**: it compiles to the same text whatever
nonces passes have, or under none of them.

The data and the version are discreet when they do not spell the key of a pass either; data with a
forged handle in it would be taken for a handle of the one pass that it guesses. -/
theorem compile_discreet (c : Compiler) (files : Files.FileTree) (source : String) (data : Json)
    (desk : Desk) (hversion : c.version ≠ passKey) (hdata : data.avoids passKey = true)
    (htemplate : (ofText? source.toList).all isDiscreet = true) (first second : Nat → UInt64)
    (text : String) : (compile { c with nonce := first } files source data desk).1 = .ok text ↔
      (compile { c with nonce := second } files source data desk).1 = .ok text :=
  ⟨compile_ok_of_discreet hversion hdata htemplate first second,
    compile_ok_of_discreet hversion hdata htemplate second first⟩

/-- A handle that is bound, looked into for its ticket and handed to a partial before it is
deferred. -/
theorem compile_discreet_bound :
    let source := "\x7b\x7b#*inline \"row\"\x7d\x7d" ++
      "\x7b\x7bdefer stars\x7d\x7d\x7b\x7b/inline\x7d\x7d" ++
      "\x7b\x7b#with (fetch_github_stats user \"stars\") as |h|\x7d\x7d" ++
      "\x7b\x7blookup h \"$deferred\"\x7d\x7d \x7b\x7b> row stars=h\x7d\x7d\x7b\x7b/with\x7d\x7d"
    let data : Json := .object [("user", .string "octocat")]
    let provider : Stats.Provider := ⟨.placeholder, none, true⟩
    "1" ≠ passKey ∧ data.avoids passKey = true ∧
      (ofText? source.toList).all isDiscreet = true ∧
      ∀ nonce : Nat → UInt64,
        (compile ⟨"1", ⟨0, 0⟩, "static", provider, nonce⟩ .empty source data .empty).1
          = .ok "0 0" := by
  intro source data provider
  have hdata : data.avoids passKey = true := by decide
  have htemplate : (ofText? source.toList).all isDiscreet = true := by decide +kernel
  have hone : (compile ⟨"1", ⟨0, 0⟩, "static", provider, fun _ => 0⟩ .empty source data
      .empty).1.toOption = some "0 0" := by decide +kernel
  refine ⟨by decide, hdata, htemplate, fun nonce => ?_⟩
  exact (compile_discreet ⟨"1", ⟨0, 0⟩, "static", provider, fun _ => 0⟩ .empty source data .empty
    (by decide) hdata htemplate (fun _ => 0) nonce "0 0").1 (ok_of_toOption hone)

/-- **Templates can look into handles.**  `lookup` hands out the nonce of a handle, and a template
that compares it with 0 has two texts. -/
theorem exists_nonce_visible :
    ¬∀ (c : Compiler) (files : Files.FileTree) (source : String) (data : Json) (desk : Desk)
      (first second : Nat → UInt64) (text : String),
      (compile { c with nonce := first } files source data desk).1 = .ok text →
        (compile { c with nonce := second } files source data desk).1 = .ok text := by
  intro h
  let source :=
    "\x7b\x7b#if (eq (lookup (fetch_github_stats \"octocat\" \"stars\") \"$pass\") 0)" ++
    "\x7d\x7d" ++ "no handle\x7b\x7belse\x7d\x7dhandle\x7b\x7b/if\x7d\x7d"
  let c : Compiler := ⟨"1", ⟨0, 0⟩, "static", ⟨.placeholder, none, true⟩, fun _ => 0⟩
  have hzero : (compile { c with nonce := fun _ => 0 } .empty source .null .empty).1.toOption
      = some "no handle" := by decide +kernel
  have hone : (compile { c with nonce := fun _ => 1 } .empty source .null .empty).1.toOption
      = some "handle" := by decide +kernel
  have hsame := h c .empty source .null .empty (fun _ => 0) (fun _ => 1) "no handle"
    (ok_of_toOption hzero)
  rw [hsame] at hone
  exact absurd hone (by decide)

end Template
end Frontispiece
