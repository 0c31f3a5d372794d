import Frontispiece.Proofs.Json.Fields
import Frontispiece.Stats.Provider

/-!
# The memo of a provider

The memo is there to save calls of the source; what a provider answers does not depend on what it
was asked before.  `Keeps` says that two memos lead to the same answers, and neither asking for a
user nor awaiting a statistic leads to others.

Whether a memo is good is not a property of the memo alone but of the provider and its source, which
is taken to answer in the same way each time.  All that later proofs use is the relation: it is
reflexive and transitive, and every operation is a step along it.
-/

set_option autoImplicit false

namespace Frontispiece
namespace Stats
namespace Provider

variable (p : Provider)

/-- Two memos lead to the same answers. -/
def Keeps (before after : Memo) : Prop :=
  ∀ user, (p.record after user).1 = (p.record before user).1

theorem Keeps.refl (memo : Memo) : p.Keeps memo memo := fun _ => rfl

theorem Keeps.trans {p : Provider} {a b c : Memo} (hab : p.Keeps a b) (hbc : p.Keeps b c) :
    p.Keeps a c := fun user => (hbc user).trans (hab user)

/-- What a provider answers when it asks nobody. -/
theorem record_of_placeholder (h : p.usesPlaceholder = true) (memo : Memo) (user : String) :
    p.record memo user = (.ok (Record.placeholder user), memo) := by
  rw [record, if_pos h]

/-- What a provider answers: what it has kept, or what the source says. -/
theorem record_fst (h : ¬p.usesPlaceholder = true) (memo : Memo) (user : String) :
    (p.record memo user).1 = ((memo.users.get? user).bind id).getD (p.source.fetch user) := by
  rw [record, if_neg h]
  rcases memo.users.get? user with _ | _ | answer <;> rfl

/-- **Asking for a user changes no answer.** -/
theorem request_keeps (memo : Memo) (user : String) : p.Keeps memo (p.request memo user).2 := by
  intro other
  by_cases h : p.usesPlaceholder = true
  · rw [record_of_placeholder p h, record_of_placeholder p h]
  · rw [record_fst p h, record_fst p h, request]
    split
    · rfl
    · next hnew =>
      by_cases heq : other = user
      · have hmiss : memo.users.get? user = none := by
          rw [Fields.get?_eq_none_iff, ← Fields.contains_iff]
          simp only [Bool.or_eq_true, not_or] at hnew
          exact hnew.2
        rw [heq, Fields.get?_insert_self, hmiss]
        rfl
      · rw [Fields.get?_insert_of_ne heq]

/-- **Awaiting a record changes no answer.** -/
theorem record_keeps (memo : Memo) (user : String) : p.Keeps memo (p.record memo user).2 := by
  intro other
  by_cases h : p.usesPlaceholder = true
  · rw [record_of_placeholder p h, record_of_placeholder p h, record_of_placeholder p h]
  · have hrecord := record_fst p h memo user
    rw [record_fst p h, record_fst p h]
    rw [record, if_neg h] at hrecord ⊢
    split
    · rfl
    · next hnew =>
      by_cases heq : other = user
      · rw [heq, Fields.get?_insert_self, ← hrecord]
        split
        · exact absurd (by assumption) (hnew _)
        · rfl
      · rw [Fields.get?_insert_of_ne heq]

/-- A statistic is a field of the record of its user. -/
theorem stat_fst (memo : Memo) (r : Request) :
    (p.stat memo r).1 = (p.record memo r.user).1.bind fun record => record.stat r.field := rfl

theorem stat_snd (memo : Memo) (r : Request) : (p.stat memo r).2 = (p.record memo r.user).2 := rfl

theorem stat_keeps (memo : Memo) (r : Request) : p.Keeps memo (p.stat memo r).2 :=
  record_keeps p memo r.user

/-- Memos that lead to the same records lead to the same statistics. -/
theorem Keeps.stat {p : Provider} {before after : Memo} (h : p.Keeps before after) (r : Request) :
    (p.stat after r).1 = (p.stat before r).1 := by
  rw [stat_fst, stat_fst, h r.user]

end Provider
end Stats
end Frontispiece
