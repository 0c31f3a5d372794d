import Frontispiece.Template.Render

/-!
# Templates with statistics in direct places

What stands for a statistic while a template is evaluated is not the statistic, so a template that
looks at one — compares it, or chooses a body by it — sees something else.  A template is *direct*
when it only ever writes statistics: it calls their helper where the result goes to the output, or
as the argument of the helpers that place a value there.

## What is here

* `Expr.isPlain` — an expression that asks for no statistics; `eval_plain` says that what it stands
  for depends only on the scope, not on what the evaluation writes to.
* `Element.isDirect` — the condition on templates, with loops, conditions and partials around the
  calls as they may be.
* `act_bodies` — helpers hand on the bodies of partials unchanged.

A direct template may loop over users, choose by conditions on the data, define partials and put
them in, as long as statistics go straight to the output.  What is excluded is binding one to a
name, comparing it, or handing it to a partial, as the handle would be seen there in place of the
statistic.  The condition is computed from the text of the template, so that it can be decided
before anything is evaluated.
-/

set_option autoImplicit false

namespace Frontispiece
namespace Template

/-- The name of the helper of statistics. -/
def statisticName : String := "fetch_github_stats"

/-- The names of the helpers that place a value. -/
def placeNames : List String := ["defer", "await"]

namespace Expr

/-- The name that is written as a head; that of a call is not written. -/
def writtenName? : Expr → Option String
  | .name text => some text
  | .path _ text => some text
  | .literal value => some (shown value)
  | .call .. => none

mutual

/-- Whether an expression asks for no statistics. -/
def isPlain : Expr → Bool
  | .call head args named =>
    head.writtenName?.any (· != statisticName) && arePlain args && arePlainNamed named
  | _ => true

/-- Whether expressions ask for no statistics. -/
def arePlain : List Expr → Bool
  | [] => true
  | e :: rest => e.isPlain && arePlain rest

/-- Whether arguments by name ask for no statistics. -/
def arePlainNamed : List (String × Expr) → Bool
  | [] => true
  | (_, e) :: rest => e.isPlain && arePlainNamed rest

end

/-- Whether an expression is a call of the helper of statistics. -/
def isStatistic : Expr → Bool
  | .call head args named =>
    head.writtenName? == some statisticName && arePlain args && arePlainNamed named
  | _ => false

end Expr

namespace Call

/-- Whether the parts of a call ask for no statistics. -/
def isPlain (call : Call) : Bool :=
  call.head.isPlain && Expr.arePlain call.args && Expr.arePlainNamed call.named

/-- Whether a call places a statistic. -/
def placesStatistic (call : Call) : Bool :=
  call.head.writtenName?.any placeNames.contains && (match call.args with
    | [] => false
    | e :: rest => e.isStatistic && Expr.arePlain rest) && Expr.arePlainNamed call.named

/-- Whether a call that is written asks for statistics at most to write them. -/
def isDirect (call : Call) : Bool :=
  call.isPlain || call.placesStatistic

end Call

namespace Element

mutual

/-- Whether an element asks for statistics only to write them. -/
def isDirect : Element → Bool
  | .text _ => true
  | .comment => true
  | .output call => call.isDirect
  | .block call _ body inverse => call.isDirect && areDirect body && areDirect inverse
  | .decorator call none => call.isPlain
  | .decorator call (some body) => call.isPlain && areDirect body
  | .insertion call _ _ body => call.isPlain && areDirect body

/-- Whether elements ask for statistics only to write them. -/
def areDirect : List Element → Bool
  | [] => true
  | e :: rest => e.isDirect && areDirect rest

end

end Element

/-! ## Results that do not touch the state

Most of what an expression asks can be answered from the scope.  Such an answer is the same whatever
the evaluation writes to, and it can be moved before or behind other steps. -/

variable {σ α β : Type}

/-- What is done with a result that does not touch the state. -/
theorem pureResult_bind (result : Except Fault α) (f : α → Eval σ β) :
    pureResult result >>= f = match result with
      | .ok a => f a
      | .error fault => throw fault := by
  cases result with
  | ok a => exact pure_bind a f
  | error fault => rfl

/-- A computation whose result depends neither on what it writes to nor on what was written. -/
def Settled (x : (σ : Type) → Output σ → Eval σ α) : Prop :=
  ∃ result : Except Fault α, ∀ (σ : Type) (out : Output σ), x σ out = pureResult result

namespace Settled

theorem of (result : Except Fault α) : Settled fun _ _ => pureResult result :=
  ⟨result, fun _ _ => rfl⟩

/-- A result that does not touch the state, and what is done with it when there is one. -/
theorem next (result : Except Fault α) {f : (σ : Type) → Output σ → α → Eval σ β}
    (hf : ∀ a, result = .ok a → Settled fun σ out => f σ out a) :
    Settled fun σ out => pureResult result >>= f σ out := by
  simp only [pureResult_bind]
  cases result with
  | error fault => exact of (.error fault)
  | ok a => exact hf a rfl

theorem bind {x : (σ : Type) → Output σ → Eval σ α} {f : (σ : Type) → Output σ → α → Eval σ β}
    (hx : Settled x) (hf : ∀ a, Settled fun σ out => f σ out a) :
    Settled fun σ out => x σ out >>= f σ out := by
  obtain ⟨result, hresult⟩ := hx
  simp only [hresult]
  exact next result fun a _ => hf a

end Settled

/-! ## Helpers

A helper answers with a value, a statistic, something to be placed, or the scopes for a body.  Only
one helper asks for statistics, and none has a body of a partial other than those in the scope of
its call. -/

/-- What the helper of a name answers. -/
def answer (setting : Setting) (scope : Scope) (u : Helper.Use) : Except Fault Act :=
  match Helper.ofName? u.name with
  | some helper => helper.act setting scope u
  | none => .error .evaluation

theorem actOf_eq (setting : Setting) (scope : Scope) (u : Helper.Use) :
    (actOf setting scope u : Eval σ Act) = pureResult (answer setting scope u) := by
  rw [actOf, answer]
  cases Helper.ofName? u.name <;> rfl

/-- Only one name is that of the helper of statistics. -/
theorem eq_statisticName {name : String} (h : Helper.ofName? name = some .statistic) :
    name = statisticName := by
  obtain ⟨before, after, heq, -⟩ := List.lookup_eq_some_iff.1 h
  have hmem : (name, Helper.statistic) ∈ before ++ (name, .statistic) :: after := by simp
  rw [← heq] at hmem
  simpa [statisticName] using hmem

/-- The names of the helpers that place a value. -/
theorem ofName?_place {name : String} (h : placeNames.contains name = true) :
    Helper.ofName? name = some .place := by
  simp only [placeNames, List.contains_iff_mem, List.mem_cons, List.not_mem_nil, or_false] at h
  rcases h with rfl | rfl <;> rfl

theorem bind_eq_ok {x : Except Fault α} {f : α → Except Fault β} {b : β} :
    x >>= f = .ok b ↔ ∃ a, x = .ok a ∧ f a = .ok b := by
  cases x with
  | error fault => exact ⟨fun h => (by cases h), fun ⟨_, h, _⟩ => (by cases h)⟩
  | ok a => exact ⟨fun h => ⟨a, rfl, h⟩, fun ⟨_, h, hb⟩ => by cases h; exact hb⟩

/-- Only the helper of statistics asks for one. -/
theorem act_statistic {setting : Setting} {scope : Scope} {u : Helper.Use} {helper : Helper}
    {request : Stats.Request} (h : helper.act setting scope u = .ok (.statistic request)) :
    helper = .statistic := by
  cases helper with
  | statistic => rfl
  | _ => simp [Helper.act, bind_eq_ok, Helper.bool] at h <;> grind

/-- The scopes of a body that is chosen by a condition. -/
theorem chosen_scopes {c : Prop} [Decidable c] {inner : Scope} {scopes : List Scope}
    (h : (if c then Act.body [inner] else .opposite) = .body scopes) : scopes = [inner] := by
  split at h
  · cases h
    rfl
  · cases h

/-- **Helpers hand on the bodies of partials unchanged.** -/
theorem act_bodies {setting : Setting} {scope : Scope} {u : Helper.Use} {helper : Helper}
    {scopes : List Scope} (h : helper.act setting scope u = .ok (.body scopes)) :
    ∀ inner ∈ scopes, inner.bodies = scope.bodies := by
  cases helper with
  | choose truth =>
    obtain ⟨condition, -, h⟩ := bind_eq_ok.1 h
    rw [chosen_scopes (Except.ok.inj h)]
    simp
  | within =>
    obtain ⟨whole, -, h⟩ := bind_eq_ok.1 h
    rw [chosen_scopes (Except.ok.inj h)]
    simp [Scope.enter]
  | compare =>
    rw [chosen_scopes (Except.ok.inj h)]
    simp
  | each =>
    obtain ⟨whole, -, h⟩ := bind_eq_ok.1 h
    split at h
    · cases h
    · cases h
      simp [Scope.enter]
  | verbatim =>
    cases h
    simp
  | log =>
    simp only [Helper.act] at h
    split at h
    · cases h
      simp
    · cases h
  | _ => simp [Helper.act, bind_eq_ok, Helper.bool] at h

/-- What the helper of a name answers is no statistic, unless it is that of statistics. -/
theorem answer_statistic {setting : Setting} {scope : Scope} {u : Helper.Use}
    {request : Stats.Request} (h : answer setting scope u = .ok (.statistic request)) :
    u.name = statisticName := by
  rw [answer] at h
  cases hname : Helper.ofName? u.name with
  | none =>
    rw [hname] at h
    cases h
  | some helper =>
    rw [hname] at h
    rw [act_statistic h] at hname
    exact eq_statisticName hname

theorem answer_bodies {setting : Setting} {scope : Scope} {u : Helper.Use}
    {scopes : List Scope} (h : answer setting scope u = .ok (.body scopes)) :
    ∀ inner ∈ scopes, inner.bodies = scope.bodies := by
  rw [answer] at h
  cases hname : Helper.ofName? u.name with
  | none =>
    rw [hname] at h
    cases h
  | some helper =>
    rw [hname] at h
    exact act_bodies h

/-! ## Plain expressions

By induction on the expression.  A call in it can be of any helper but that of statistics, and
helpers by name are what the condition can be checked by before anything is evaluated. -/

/-- A written head is known by its name, whatever the evaluation writes to. -/
theorem nameOf_written {e : Expr} {name : String} (h : e.writtenName? = some name)
    (evaluated : Eval σ Found) : nameOf evaluated e = pure name := by
  cases e with
  | call head args named => cases h
  | name text =>
    cases h
    rfl
  | path path text =>
    cases h
    rfl
  | literal value =>
    cases h
    rfl

variable (setting : Setting) (scope : Scope)

/-- What an act that asks for no statistic stands for. -/
theorem actValue_settled {act : Act} (h : ∀ request, act ≠ .statistic request) :
    Settled fun _ out => actValue out act := by
  cases act with
  | value value => exact .of (.ok (Found.value value))
  | statistic request => exact absurd rfl (h request)
  | place helper value => exact .of (.error _)
  | body scopes => exact .of (.ok (Found.value (.string "")))
  | opposite => exact .of (.ok (Found.value (.string "")))

mutual

/-- **A plain expression stands for the same in every evaluation.** -/
theorem eval_plain : ∀ e : Expr, e.isPlain = true → Settled fun _ out => eval setting out scope e
  | .name _, _ => .of (.ok Found.missing)
  | .path path _, _ => .of (scope.resolve path)
  | .literal value, _ => .of (.ok (Found.value value))
  | .call head args named, h => by
    simp only [Expr.isPlain, Bool.and_eq_true, Option.any_eq_true, bne_iff_ne] at h
    obtain ⟨⟨⟨name, hwritten, hname⟩, hargs⟩, hnamed⟩ := h
    simp only [eval, nameOf_written hwritten, pure_bind]
    refine (evalAll_plain args hargs).bind fun args => ?_
    refine (evalNamed_plain named hnamed).bind fun named => ?_
    simp only [actOf_eq]
    refine Settled.next _ fun act hact => actValue_settled fun request heq => ?_
    exact hname (answer_statistic (heq ▸ hact))

theorem evalAll_plain : ∀ args : List Expr, Expr.arePlain args = true →
    Settled fun _ out => evalAll setting out scope args
  | [], _ => .of (.ok [])
  | e :: rest, h => by
    rw [Expr.arePlain, Bool.and_eq_true] at h
    simp only [evalAll]
    exact (eval_plain e h.1).bind fun found => (evalAll_plain rest h.2).bind fun others =>
      .of (.ok (found :: others))

theorem evalNamed_plain : ∀ named : List (String × Expr), Expr.arePlainNamed named = true →
    Settled fun _ out => evalNamed setting out scope named
  | [], _ => .of (.ok [])
  | (name, e) :: rest, h => by
    rw [Expr.arePlainNamed, Bool.and_eq_true] at h
    simp only [evalNamed]
    exact (eval_plain e h.1).bind fun found => (evalNamed_plain rest h.2).bind fun others =>
      .of (.ok ((name, found) :: others))

end

theorem nameOf_plain {head : Expr} (h : head.isPlain = true) :
    Settled fun _ out => nameOf (eval setting out scope head) head := by
  cases head with
  | name text => exact .of (.ok text)
  | path path text => exact .of (.ok text)
  | literal value => exact .of (.ok (shown value))
  | call head args named =>
    exact (eval_plain setting scope _ h).bind fun found => .of (.ok (shown found.json))

/-- A call without statistics is the same in every evaluation. -/
theorem evalCall_plain {call : Call} (h : call.isPlain = true) (names : List String) :
    Settled fun _ out => evalCall setting out scope call names := by
  rw [Call.isPlain, Bool.and_eq_true, Bool.and_eq_true] at h
  obtain ⟨⟨hhead, hargs⟩, hnamed⟩ := h
  exact (nameOf_plain setting scope hhead).bind fun name =>
    (evalAll_plain setting scope _ hargs).bind fun args =>
      (evalNamed_plain setting scope _ hnamed).bind fun named =>
        .of (.ok (Helper.Use.mk name args named names))

/-! ## Calls for statistics

A statistic is first named, by its arguments, and then fetched.  In a direct place its value goes to
the output next, with nothing in between that could look at it. -/

/-- The helper of statistics asks for one, or refuses its arguments. -/
theorem answer_statisticName (u : Helper.Use) (h : u.name = statisticName) :
    ∃ result : Except Fault Stats.Request,
      answer setting scope u = result.map Act.statistic := by
  have hname : Helper.ofName? u.name = some .statistic := by
    rw [h]
    rfl
  refine ⟨do .ok ⟨← u.text 0, ← u.text 1⟩, ?_⟩
  rw [answer, hname]
  simp only [Helper.act]
  cases u.text 0 with
  | error fault => rfl
  | ok user => cases u.text 1 <;> rfl

/-- A call for a statistic finds out which, and then fetches it. -/
theorem eval_statistic {e : Expr} (h : e.isStatistic = true) :
    ∃ request : Except Fault Stats.Request, ∀ (σ : Type) (out : Output σ),
      eval setting out scope e = (do
        let request ← pureResult request
        let value ← fetch out request
        pure (.value value)) := by
  cases e with
  | call head args named =>
    simp only [Expr.isStatistic, Bool.and_eq_true, beq_iff_eq] at h
    obtain ⟨⟨hname, hargs⟩, hnamed⟩ := h
    obtain ⟨args, hargs⟩ := evalAll_plain setting scope args hargs
    obtain ⟨named, hnamed⟩ := evalNamed_plain setting scope named hnamed
    simp only [eval, nameOf_written hname, hargs, hnamed, actOf_eq, pure_bind, pureResult_bind]
    cases args with
    | error fault => exact ⟨.error fault, fun _ _ => rfl⟩
    | ok args =>
      cases named with
      | error fault => exact ⟨.error fault, fun _ _ => rfl⟩
      | ok named =>
        obtain ⟨request, hrequest⟩ := answer_statisticName setting scope
          ⟨statisticName, args, named, []⟩ rfl
        refine ⟨request, fun σ out => ?_⟩
        simp only [hrequest]
        cases request <;> rfl
  | _ => cases h

/-- A call that places a statistic finds out which, fetches it, and looks at its other
arguments. -/
theorem evalCall_placesStatistic {call : Call} (h : call.placesStatistic = true)
    (names : List String) :
    ∃ (name : String) (request : Except Fault Stats.Request)
      (others : Except Fault (List Found × List (String × Found))),
      call.head.writtenName? = some name ∧ Helper.ofName? name = some .place ∧
      ∀ (σ : Type) (out : Output σ), evalCall setting out scope call names = (do
        let request ← pureResult request
        let value ← fetch out request
        let others ← pureResult others
        pure ⟨name, .value value :: others.1, others.2, names⟩) := by
  obtain ⟨head, args, named⟩ := call
  simp only [Call.placesStatistic, Bool.and_eq_true, Option.any_eq_true] at h
  obtain ⟨⟨⟨name, hwritten, hname⟩, hargs⟩, hnamed⟩ := h
  cases args with
  | nil => cases hargs
  | cons e rest =>
    rw [Bool.and_eq_true] at hargs
    obtain ⟨request, hrequest⟩ := eval_statistic setting scope hargs.1
    obtain ⟨rest, hrest⟩ := evalAll_plain setting scope rest hargs.2
    obtain ⟨named, hnamed⟩ := evalNamed_plain setting scope named hnamed
    refine ⟨name, request, (do .ok (← rest, ← named)), hwritten, ofName?_place hname,
      fun σ out => ?_⟩
    simp only [evalCall, nameOf_written hwritten, evalAll, hrequest, hrest, hnamed, pure_bind,
      bind_assoc]
    congr 1
    funext request
    congr 1
    funext value
    cases rest with
    | error fault => rfl
    | ok rest => cases named <;> rfl

end Template
end Frontispiece
