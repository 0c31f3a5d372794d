import Frontispiece.Proofs.Stats.Provider

/-!
# Where answers come from

A provider that is made in an environment answers from its source, or with placeholder records and
without asking anybody.  Which of the two depends on debug mode, on whether the source needs a
token, and on the variables that may hold one.

## What is here

* `AsksSource`, `AsksNobody` — the two ways to answer a first request.  `asksSource_iff` says which
  of them a provider takes.
* `firstToken?` — the first token that a variable holds.  `token?_eq_firstToken?_iff` says when it
  is the one that is used: a variable that is set to nothing hides the tokens of those after it.
* `ofEnvironment_policy` — what this comes to for a provider in an environment.

The theorem is an exact description and not only an implication, so that it also says when a
provider does not ask although it could.  This happens in an environment in which the first variable
is there without a value: it is taken, found to be empty, and the others are not looked at.
-/

set_option autoImplicit false

namespace Frontispiece
namespace Stats

/-- What a source says of one statistic. -/
def Source.stat (source : Source) (r : Request) : Except Fault Json :=
  (source.fetch r.user).bind fun record => record.stat r.field

namespace Provider

/-! ## Two ways to answer

A provider answers from its source or with placeholders, and which one it is does not depend on the
request.  Both are stated with the number of questions that the source is asked. -/

section

variable (p : Provider) (r : Request)

/-- The answer is what the source says, which is asked once. -/
def AsksSource : Prop :=
  (p.stat .empty r).1 = p.source.stat r ∧ (p.stat .empty r).2.fetches = 1

/-- The answer is a field of the placeholder record, and the source is not asked. -/
def AsksNobody : Prop :=
  (p.stat .empty r).1 = Source.placeholder.stat r ∧ (p.stat .empty r).2.fetches = 0

variable {p}

/-- When a provider does without placeholders. -/
theorem not_usesPlaceholder_iff : ¬p.usesPlaceholder = true ↔
    p.debug = false ∧ (p.source.needsToken = false ∨ p.token.isSome = true) := by
  cases htoken : p.token <;> simp [usesPlaceholder, htoken]

theorem asksNobody_of_placeholder (h : p.usesPlaceholder = true) : p.AsksNobody r := by
  have hrecord := record_of_placeholder p h .empty r.user
  rw [AsksNobody, stat_fst, stat_snd, hrecord]
  exact ⟨rfl, rfl⟩

theorem asksSource_of_not_placeholder (h : ¬p.usesPlaceholder = true) : p.AsksSource r := by
  rw [AsksSource, stat_fst, stat_snd, record_fst p h, record, if_neg h]
  exact ⟨rfl, rfl⟩

/-- **Which way is taken** does not depend on the request. -/
theorem asksSource_iff : p.AsksSource r ↔
    p.debug = false ∧ (p.source.needsToken = false ∨ p.token.isSome = true) := by
  rw [← not_usesPlaceholder_iff]
  refine ⟨fun hsource hplaceholder => ?_, asksSource_of_not_placeholder r⟩
  have hnone := (asksNobody_of_placeholder r hplaceholder).2
  rw [hsource.2] at hnone
  cases hnone

end

/-! ## The token of an environment

The variables are looked through in order.  The first one that is set is taken and then dropped if
it is empty, which is not the same as taking the first that holds a token. -/

section

variable (environment : String → Option String)

/-- A variable holds a token. -/
def HoldsToken (name : String) : Prop :=
  ∃ token, environment name = some token ∧ token ≠ ""

/-- The first token that a variable holds. -/
def firstToken? : Option String :=
  (tokenVariables.filterMap environment).find? fun token => !token.isEmpty

/-- No token is hidden: the first variable that is set may only be set to nothing if no variable
holds a token. -/
def Unhidden : Prop :=
  tokenVariables.findSome? environment = some "" →
    ∀ name ∈ tokenVariables, ¬HoldsToken environment name

theorem isSome_firstToken?_iff : (firstToken? environment).isSome = true ↔
    ∃ name ∈ tokenVariables, HoldsToken environment name := by
  simp only [firstToken?, List.find?_isSome, List.mem_filterMap, HoldsToken]
  constructor
  · rintro ⟨token, ⟨name, hname, htoken⟩, hheld⟩
    exact ⟨name, hname, token, htoken, by simpa using hheld⟩
  · rintro ⟨name, hname, token, htoken, hheld⟩
    exact ⟨token, ⟨name, hname, htoken⟩, by simpa using hheld⟩

/-- **The first token is used exactly when none is hidden.** -/
theorem token?_eq_firstToken?_iff :
    token? environment = firstToken? environment ↔ Unhidden environment := by
  have hheld : firstToken? environment = none ↔
      ∀ name ∈ tokenVariables, ¬HoldsToken environment name := by
    rw [← Option.not_isSome_iff_eq_none, isSome_firstToken?_iff]
    simp
  rw [Unhidden, ← hheld, token?, firstToken?, ← List.head?_filterMap]
  cases tokenVariables.filterMap environment with
  | nil => simp
  | cons value rest =>
    by_cases hempty : value = ""
    · have hnone : (some value).filter (fun token => !token.isEmpty) = none := by simp [hempty]
      rw [List.head?_cons, hnone, hempty, forall_prop_of_true rfl]
      exact eq_comm
    · simp [hempty]

theorem isSome_token?_iff : (token? environment).isSome = true ↔
    ∃ token, tokenVariables.findSome? environment = some token ∧ token ≠ "" := by
  rw [token?, Option.isSome_iff_exists]
  refine exists_congr fun token => ?_
  rw [Option.filter_eq_some_iff]
  simp

end

/-! ## Providers in an environment

The two parts together: when there is a token, and what a provider does without one. -/

/-- **Where a provider in an environment takes its answers from.**

1. Its token is the first one that a variable holds, unless that one is hidden.
2. Every request is answered by the source exactly when debug mode is off and the source needs no
   token or the first variable that is set is not set to nothing.
3. When no token is hidden, it is enough for the second that any variable holds a token.
4. All other requests are answered with the placeholder record, and nobody is asked. -/
theorem ofEnvironment_policy (environment : String → Option String) (source : Source)
    (debug : Bool) :
    let p : Provider := { ofEnvironment environment source with debug }
    (p.token = firstToken? environment ↔ Unhidden environment) ∧
    (∀ r, p.AsksSource r ↔ debug = false ∧ (source.needsToken = false ∨
      ∃ token, tokenVariables.findSome? environment = some token ∧ token ≠ "")) ∧
    (Unhidden environment → ∀ r, p.AsksSource r ↔ debug = false ∧ (source.needsToken = false ∨
      ∃ name ∈ tokenVariables, HoldsToken environment name)) ∧
    ∀ r, ¬p.AsksSource r → p.AsksNobody r := by
  intro p
  have htoken : p.token = token? environment := rfl
  refine ⟨token?_eq_firstToken?_iff environment, fun r => ?_, fun hunhidden r => ?_,
    fun r hsource => ?_⟩
  · rw [asksSource_iff, htoken, isSome_token?_iff]
    exact Iff.rfl
  · rw [asksSource_iff, htoken, (token?_eq_firstToken?_iff environment).2 hunhidden,
      isSome_firstToken?_iff]
    exact Iff.rfl
  · have hplaceholder : p.usesPlaceholder = true :=
      Decidable.of_not_not fun h => hsource (asksSource_of_not_placeholder r h)
    exact asksNobody_of_placeholder r hplaceholder

/-- An environment in which only the second variable is set. -/
def secondOnly (name : String) : Option String :=
  if name = "GITHUB_TOKEN" then some "b" else none

/-- A source that needs a token. -/
def guarded : Source where
  fetch user := .ok { Record.placeholder user with stars := 42 }
  needsToken := true

/-- The token of the second variable is enough. -/
theorem secondOnly_policy : Unhidden secondOnly ∧ firstToken? secondOnly = some "b" ∧
    ∀ r, (ofEnvironment secondOnly guarded).AsksSource r := by
  have hunhidden : Unhidden secondOnly := fun h => absurd h (by decide)
  refine ⟨hunhidden, rfl, fun r => ?_⟩
  obtain ⟨-, -, hasks, -⟩ := ofEnvironment_policy secondOnly guarded false
  exact (hasks hunhidden r).2 ⟨rfl, .inr ⟨"GITHUB_TOKEN", by decide, "b", rfl, by decide⟩⟩

/-- **A token can be hidden**: with the first variable set to nothing and a token in the second one,
a source that needs a token is not asked. -/
theorem exists_token_hidden : ¬∀ (environment : String → Option String) (source : Source)
    (debug : Bool) (r : Request),
    ({ ofEnvironment environment source with debug } : Provider).AsksSource r ↔
      debug = false ∧ (source.needsToken = false ∨
        ∃ name ∈ tokenVariables, HoldsToken environment name) := by
  intro hall
  let environment (name : String) : Option String :=
    if name = "GITHUB_TOKEN" then some "b" else some ""
  have hheld : HoldsToken environment "GITHUB_TOKEN" := ⟨"b", rfl, by decide⟩
  have hasks := (hall environment guarded false ⟨"octocat", "stars"⟩).2
    ⟨rfl, .inr ⟨"GITHUB_TOKEN", by decide, hheld⟩⟩
  exact absurd hasks.2 (by decide)

end Provider
end Stats
end Frontispiece
