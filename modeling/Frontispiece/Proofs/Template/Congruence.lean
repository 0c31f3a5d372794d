import Frontispiece.Proofs.Template.Simulation

/-!
# What holds of every template

Much that is said of evaluations holds of any template whatever, because it holds of the few steps
that evaluations are made of.  A `Congruence` is a relation of two evaluations that holds of these
steps and of what is put together from them; then it holds of the evaluations of every template.

A property of one evaluation is the relation of it to itself.

## What is here

* `Congruence` — what has to be shown of a relation, one field for each kind of step.
* `Congruence.renderWithin` — then it holds of whole templates, by induction on expressions, on
  elements, and on the depth of partials.
* `renderWithin_of_le`, `render_of_le` — how deep partials may nest makes no difference to what is
  rendered within a depth.

The syntax of templates is large, and there are several things to be said of all evaluations.  Each
of them would be an induction over expressions, calls, elements and partials.  `Congruence` has what
these inductions have in common: the steps are a parameter, and what is left to show for a new
property is a handful of facts about single steps.
-/

set_option autoImplicit false

namespace Frontispiece
namespace Template

variable {σ τ : Type}

/-- A relation of two evaluations that holds of the steps they are put together from. -/
structure Congruence (setting setting' : Setting) (out : Output σ) (out' : Output τ) where
  Rel : {α : Type} → Eval σ α → Eval τ α → Prop
  result : ∀ {α : Type} (result : Except Fault α), Rel (pureResult result) (pureResult result)
  bind : ∀ {α β : Type} {x : Eval σ α} {y : Eval τ α} {f : α → Eval σ β} {g : α → Eval τ β},
    Rel x y → (∀ a, Rel (f a) (g a)) → Rel (x >>= f) (y >>= g)
  /-- What helpers answer is all that a setting is for. -/
  answer : ∀ scope u,
    Rel (pureResult (answer setting scope u)) (pureResult (answer setting' scope u))
  write : ∀ scope text, Rel (write out scope text) (write out' scope text)
  fetch : ∀ request, Rel (fetch out request) (fetch out' request)
  place : ∀ value, Rel (place out value) (place out' value)
  /-- Looking at the partials that are defined. -/
  partials : ∀ {α : Type} {f : Fields (List Element) → Eval σ α}
    {g : Fields (List Element) → Eval τ α}, (∀ partials, Rel (f partials) (g partials)) →
      Rel (do let p ← get; f p.partials) (do let q ← get; g q.partials)
  changePartials : ∀ change : Fields (List Element) → Fields (List Element),
    Rel (modify fun p => { p with partials := change p.partials })
      (modify fun q => { q with partials := change q.partials })

namespace Congruence

variable {setting setting' : Setting} {out : Output σ} {out' : Output τ}
  (c : Congruence setting setting' out out')

theorem pure {α : Type} (a : α) : c.Rel (Pure.pure a) (Pure.pure a) :=
  c.result (.ok a)

theorem throw {α : Type} (fault : Fault) :
    c.Rel (MonadExcept.throw fault : Eval σ α) (MonadExcept.throw fault) :=
  c.result (.error fault)

theorem actOf (scope : Scope) (u : Helper.Use) :
    c.Rel (actOf setting scope u) (actOf setting' scope u) := by
  rw [actOf_eq, actOf_eq]
  exact c.answer scope u

theorem forM {α : Type} {f : α → Eval σ Unit} {g : α → Eval τ Unit}
    (h : ∀ a, c.Rel (f a) (g a)) : ∀ items : List α, c.Rel (items.forM f) (items.forM g)
  | [] => c.pure ()
  | a :: rest => c.bind (h a) fun _ => forM h rest

/-! ## Expressions

An expression asks for the scope, for partials and for statistics, in an order that the calls in it
give.  What holds of these steps goes through all of them. -/

theorem nameOf {x : Eval σ Found} {y : Eval τ Found} (h : c.Rel x y) (head : Expr) :
    c.Rel (nameOf x head) (nameOf y head) := by
  cases head with
  | name text => exact c.pure text
  | path path text => exact c.pure text
  | literal value => exact c.pure (shown value)
  | call head args named => exact c.bind h fun found => c.pure (shown found.json)

theorem actValue (act : Act) : c.Rel (actValue out act) (actValue out' act) := by
  cases act with
  | value value => exact c.pure _
  | statistic request => exact c.bind (c.fetch request) fun value => c.pure _
  | place helper value => exact c.throw _
  | body scopes => exact c.pure _
  | opposite => exact c.pure _

mutual

/-- **Expressions**, with their calls from inside out. -/
theorem eval (scope : Scope) : ∀ e : Expr,
    c.Rel (eval setting out scope e) (eval setting' out' scope e)
  | .name _ => c.pure Found.missing
  | .path path _ => c.result (scope.resolve path)
  | .literal value => c.pure (Found.value value)
  | .call head args named => by
    rw [Template.eval, Template.eval]
    refine c.bind (c.nameOf (eval scope head) head) fun name => ?_
    refine c.bind (evalAll scope args) fun args => c.bind (evalNamed scope named) fun named => ?_
    exact c.bind (c.actOf scope _) c.actValue

theorem evalAll (scope : Scope) : ∀ args : List Expr,
    c.Rel (evalAll setting out scope args) (evalAll setting' out' scope args)
  | [] => c.pure []
  | e :: rest => by
    rw [Template.evalAll, Template.evalAll]
    exact c.bind (eval scope e) fun found => c.bind (evalAll scope rest) fun others =>
      c.pure (found :: others)

theorem evalNamed (scope : Scope) : ∀ named : List (String × Expr),
    c.Rel (evalNamed setting out scope named) (evalNamed setting' out' scope named)
  | [] => c.pure []
  | (name, e) :: rest => by
    rw [Template.evalNamed, Template.evalNamed]
    exact c.bind (eval scope e) fun found => c.bind (evalNamed scope rest) fun others =>
      c.pure ((name, found) :: others)

end

theorem evalCall (scope : Scope) (call : Call) (names : List String) :
    c.Rel (evalCall setting out scope call names) (evalCall setting' out' scope call names) :=
  c.bind (c.nameOf (c.eval scope call.head) call.head) fun name =>
    c.bind (c.evalAll scope call.args) fun args =>
      c.bind (c.evalNamed scope call.named) fun named =>
        c.pure (Helper.Use.mk name args named names)

/-! ## Partials

Putting in a partial goes on with another part of the template, one level deeper.  That part is not
smaller than the element, so the depth is what the induction goes by. -/

theorem decorate (scope : Scope) (call : Call) (body : Option (List Element)) :
    c.Rel (decorate setting out scope call body) (decorate setting' out' scope call body) := by
  refine c.bind (c.evalCall scope call []) fun u => ?_
  split
  · exact c.changePartials _
  · exact c.throw _

theorem decorateAll (scope : Scope) : ∀ elements : List Element,
    c.Rel (decorateAll setting out scope elements) (decorateAll setting' out' scope elements)
  | [] => c.pure ()
  | e :: rest => by
    have ih := decorateAll scope rest
    cases e with
    | decorator call body => exact c.bind (c.decorate scope call body) fun _ => ih
    | _ => exact ih

/-- What is put in is related if its evaluation is, and goes through the same scope. -/
theorem putIn {insert : Scope → List Element → Eval σ Unit}
    {insert' : Scope → List Element → Eval τ Unit}
    (hinsert : ∀ scope elements, c.Rel (insert scope elements) (insert' scope elements))
    (scope : Scope) (u : Helper.Use) (indent : Option String) (handed : Option (List Element))
    (partials : Fields (List Element)) :
    c.Rel (Comparison.putIn insert scope u indent handed partials)
      (Comparison.putIn insert' scope u indent handed partials) := by
  rw [Comparison.putIn, Comparison.putIn]
  split
  · exact c.pure ()
  · exact c.bind (c.result _) fun inner => c.bind (hinsert inner _) fun _ =>
      c.changePartials fun _ => partials

/-! ## Elements

By induction on elements, with the evaluation of what is put in as a parameter of which the relation
is known.  The last lemma then takes the parameter away, by induction on the depth. -/

/-- An answer is carried out by parts that are related. -/
theorem carryOut {body : List Scope → Eval σ Unit} {body' : List Scope → Eval τ Unit}
    {opposite : Eval σ Unit} {opposite' : Eval τ Unit} (hbody : ∀ scopes, c.Rel (body scopes)
      (body' scopes)) (hopposite : c.Rel opposite opposite') (scope : Scope) (act : Act) :
    c.Rel (Comparison.carryOut out scope body opposite act)
      (Comparison.carryOut out' scope body' opposite' act) := by
  cases act with
  | value value => exact c.write scope (shown value)
  | statistic request => exact c.bind (c.fetch request) c.place
  | place helper value => exact c.place value
  | body scopes => exact hbody scopes
  | opposite => exact hopposite

mutual

/-- **Elements**, if it holds of the partials that are put in. -/
theorem renderElement {insert : Scope → List Element → Eval σ Unit}
    {insert' : Scope → List Element → Eval τ Unit}
    (hinsert : ∀ scope elements, c.Rel (insert scope elements) (insert' scope elements)) :
    ∀ (e : Element) (scope : Scope), c.Rel (renderElement setting out insert scope e)
      (renderElement setting' out' insert' scope e)
  | .text text, scope => c.write scope text
  | .comment, _ => c.pure ()
  | .output call, scope => by
    refine c.bind (c.nameOf (c.eval scope call.head) call.head) fun name => ?_
    split
    · refine c.bind (c.eval scope call.head) fun found => ?_
      cases found with
      | missing => exact c.pure ()
      | inData keys value => exact c.write scope _
      | value value => exact c.write scope _
    · exact c.bind (c.evalCall scope call []) fun u => c.bind (c.actOf scope u)
        (c.carryOut (fun _ => c.pure ()) (c.pure ()) scope)
  | .block call names body inverse, scope =>
    c.bind (c.evalCall scope call names) fun u => c.bind (c.actOf scope u)
      (c.carryOut (fun scopes => c.forM (fun inner => renderAll hinsert body inner) scopes)
        (renderAll hinsert inverse scope) scope)
  | .decorator call body, scope => c.decorate scope call body
  | .insertion call indent isBlock body, scope =>
    c.bind (c.evalCall scope call []) fun u => c.bind (c.decorateAll scope body) fun _ =>
      c.partials fun partials => c.putIn hinsert scope u indent _ partials

theorem renderAll {insert : Scope → List Element → Eval σ Unit}
    {insert' : Scope → List Element → Eval τ Unit}
    (hinsert : ∀ scope elements, c.Rel (insert scope elements) (insert' scope elements)) :
    ∀ (elements : List Element) (scope : Scope), c.Rel (renderAll setting out insert scope elements)
      (renderAll setting' out' insert' scope elements)
  | [], _ => c.pure ()
  | e :: rest, scope => c.bind (renderElement hinsert e scope) fun _ => renderAll hinsert rest scope

end

/-- **Templates**, with partials of any depth. -/
theorem renderWithin (fuel : Nat) : ∀ scope elements,
    c.Rel (renderWithin setting out fuel scope elements)
      (renderWithin setting' out' fuel scope elements) := by
  induction fuel with
  | zero => exact fun _ _ => c.throw .evaluation
  | succ fuel ih => exact fun scope elements => c.renderAll ih elements scope

end Congruence

/-! ## How deep partials nest

A partial that lies too deep is a fault of evaluation.  So an evaluation that comes to something
else has met no such partial, and goes the same way when they may nest deeper. -/

section

open Frontispiece.Computation (Refines)

variable (setting : Setting) (out : Output σ)

/-- Evaluations of which the second goes the way of the first, unless that one ends in a fault of
evaluation. -/
def deeper : Congruence setting setting out out where
  Rel x y := Refines (· = ·) (· = .evaluation) x y
  result _ := .refl _
  bind := .bind
  answer _ _ := .refl _
  write _ _ := .refl _
  fetch _ := .refl _
  place _ := .refl _
  partials h := .get_bind fun p _ hpq => hpq ▸ h p.partials
  changePartials _ := .refl _

/-- One more level, by induction on the depth: it is the innermost level that is new. -/
theorem renderWithin_succ_refines : ∀ (depth : Nat) (scope : Scope) (elements : List Element),
    Refines (· = ·) (· = .evaluation) (renderWithin setting out depth scope elements)
      (renderWithin setting out (depth + 1) scope elements)
  | 0, _, _ => .excused rfl
  | depth + 1, scope, elements =>
    (deeper setting out).renderAll (renderWithin_succ_refines depth) elements scope

/-- **More levels change nothing**, unless there is a fault of evaluation. -/
theorem renderWithin_of_le {depth depth' : Nat} (hle : depth ≤ depth') (scope : Scope)
    (elements : List Element) (p : Progress σ)
    (h : ((renderWithin setting out depth scope elements).run.run p).1 ≠ .error .evaluation) :
    (renderWithin setting out depth' scope elements).run.run p
      = (renderWithin setting out depth scope elements).run.run p := by
  induction hle with
  | refl => rfl
  | @step depth' hle ih =>
    obtain ⟨_, hfault, rfl⟩ | ⟨hanswer, hstate⟩ :=
      renderWithin_succ_refines setting out depth' scope elements p p rfl
    · exact absurd (ih ▸ hfault) h
    · exact (Prod.ext hanswer hstate).symm.trans ih

/-- **The limit on partials is none for a template that renders.** -/
theorem render_of_le (data : Json) (template : Template) (start : σ)
    (h : (render setting out data template start).1 ≠ .error .evaluation) {depth : Nat}
    (hle : maxDepth ≤ depth) :
    let (result, progress) := (renderWithin setting out depth { data } template).run ⟨start, []⟩
    (result, progress.written) = render setting out data template start := by
  have hsame := renderWithin_of_le setting out hle { data } template ⟨start, []⟩ h
  exact congrArg (fun run : Except Fault Unit × Progress σ => (run.1, run.2.written)) hsame

end

end Template
end Frontispiece
