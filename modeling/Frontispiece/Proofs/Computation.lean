/-!
# Computations that can fail

Scenes, templates, pages and builds run as computations that carry a state along and can fail.  What
comes after another computation runs from the state in which that one ended, if it ended well.

## What is here

* `run_bind_ok`, `run_bind_error` — two computations, when the first of them ends well or fails.
* `ok_of_run_bind`, `error_of_run_bind` — what is known of the two when they end well or fail.
* `Refines` — a computation that another one follows from related states, unless it fails in a way
  that is excused.  It composes.

Much of the project is about computations with a state that can fail, and about two of them that do
alike: with more fuel, with other files, with another history.  `Refines` is the relation for this.
It goes one way only.  Of two computations the second follows the first, and where the first fails
with an excused error nothing is asked of the second; so an error may be excused that stands for
spent fuel.
-/

set_option autoImplicit false

namespace Frontispiece
namespace Computation

variable {σ ε α β : Type} {x : ExceptT ε (StateM σ) α} {f : α → ExceptT ε (StateM σ) β}
  {s s' : σ}

theorem run_bind_ok {a : α} (h : x.run.run s = (.ok a, s'))
    (f : α → ExceptT ε (StateM σ) β) : (x >>= f).run.run s = (f a).run.run s' := by
  show (ExceptT.bindCont f (x.run.run s).1) (x.run.run s).2 = _
  rw [h]
  rfl

/-- The first failure is the failure of the whole. -/
theorem run_bind_error {e : ε} (h : x.run.run s = (.error e, s'))
    (f : α → ExceptT ε (StateM σ) β) : (x >>= f).run.run s = (.error e, s') := by
  show (ExceptT.bindCont f (x.run.run s).1) (x.run.run s).2 = _
  rw [h]
  rfl

/-- What ends well does so step by step. -/
theorem ok_of_run_bind {b : β} (h : (x >>= f).run.run s = (.ok b, s')) :
    ∃ a s₁, x.run.run s = (.ok a, s₁) ∧ (f a).run.run s₁ = (.ok b, s') := by
  rcases hfirst : x.run.run s with ⟨e | a, s₁⟩
  · rw [run_bind_error hfirst] at h
    cases h
  · exact ⟨a, s₁, rfl, (run_bind_ok hfirst f).symm.trans h⟩

/-- What fails does so in its first step or after it. -/
theorem error_of_run_bind {e : ε} (h : (x >>= f).run.run s = (.error e, s')) :
    x.run.run s = (.error e, s') ∨
      ∃ a s₁, x.run.run s = (.ok a, s₁) ∧ (f a).run.run s₁ = (.error e, s') := by
  rcases hfirst : x.run.run s with ⟨e₁ | a, s₁⟩
  · rw [run_bind_error hfirst] at h
    cases h
    exact .inl rfl
  · exact .inr ⟨a, s₁, rfl, (run_bind_ok hfirst f).symm.trans h⟩

/-! ## Computations that follow each other

With every state related to every other, two computations that refine each other answer alike
wherever they start.  With equal states they are the same.  What is excused is an error like that of
fuel that is spent, of which one computation may know and the other may not. -/

/-- From related states the second computation answers as the first and leaves a related state,
unless the first fails with an error that is excused. -/
def Refines (R : σ → σ → Prop) (E : ε → Prop) (x y : ExceptT ε (StateM σ) α) : Prop :=
  ∀ s s', R s s' → (∃ e, (x.run.run s).1 = .error e ∧ E e) ∨
    (x.run.run s).1 = (y.run.run s').1 ∧ R (x.run.run s).2 (y.run.run s').2

namespace Refines

variable {R : σ → σ → Prop} {E : ε → Prop} {x y : ExceptT ε (StateM σ) α}
  {f g : α → ExceptT ε (StateM σ) β}

theorem pure (a : α) : Refines R E (Pure.pure a) (Pure.pure a) :=
  fun _ _ h => .inr ⟨rfl, h⟩

theorem refl (x : ExceptT ε (StateM σ) α) : Refines (· = ·) E x x :=
  fun _ _ h => .inr ⟨h ▸ rfl, h ▸ rfl⟩

theorem throw (e : ε) : Refines R E (MonadExcept.throw e : ExceptT ε (StateM σ) α)
    (MonadExcept.throw e) :=
  fun _ _ h => .inr ⟨rfl, h⟩

/-- An excused error may stand against anything. -/
theorem excused {e : ε} (h : E e) : Refines R E (MonadExcept.throw e) y :=
  fun _ _ _ => .inl ⟨e, rfl, h⟩

/-- A step of the state alone. -/
theorem lift {z z' : StateM σ α} (hanswer : ∀ s s', R s s' → (z s).1 = (z' s').1)
    (hstate : ∀ s s', R s s' → R (z s).2 (z' s').2) :
    Refines R E (liftM z : ExceptT ε (StateM σ) α) (liftM z') :=
  fun s s' h => .inr ⟨congrArg Except.ok (hanswer s s' h), hstate s s' h⟩

/-- Two steps, the second of which goes by the answer of the first. -/
theorem bind (hx : Refines R E x y) (hf : ∀ a, Refines R E (f a) (g a)) :
    Refines R E (x >>= f) (y >>= g) := by
  intro s s' h
  have hfirst := hx s s' h
  rcases hrun : x.run.run s with ⟨e | a, s₁⟩ <;> rcases hrun' : y.run.run s' with ⟨e' | a', s₁'⟩ <;>
    rw [hrun, hrun'] at hfirst
  · rw [run_bind_error hrun, run_bind_error hrun']
    obtain ⟨e, he, hexcused⟩ | ⟨he, hstate⟩ := hfirst
    · cases he
      exact .inl ⟨e, rfl, hexcused⟩
    · cases he
      exact .inr ⟨rfl, hstate⟩
  · rw [run_bind_error hrun]
    obtain ⟨e, he, hexcused⟩ | ⟨he, -⟩ := hfirst
    · cases he
      exact .inl ⟨e, rfl, hexcused⟩
    · cases he
  · obtain ⟨e, he, -⟩ | ⟨he, -⟩ := hfirst <;> cases he
  · rw [run_bind_ok hrun, run_bind_ok hrun']
    obtain ⟨e, he, -⟩ | ⟨he, hstate⟩ := hfirst
    · cases he
    · cases he
      exact hf a s₁ s₁' hstate

/-- Looking at the state first. -/
theorem get_bind {f g : σ → ExceptT ε (StateM σ) α}
    (h : ∀ s s', R s s' → Refines R E (f s) (g s')) : Refines R E (get >>= f) (get >>= g) :=
  fun s s' hs => h s s' hs s s' hs

/-- More errors may be excused. -/
theorem mono {E' : ε → Prop} (h : Refines R E x y) (hE : ∀ e, E e → E' e) : Refines R E' x y :=
  fun s s' hs => (h s s' hs).imp_left fun ⟨e, he, hexcused⟩ => ⟨e, he, hE e hexcused⟩

end Refines

end Computation
end Frontispiece
