import Mathlib.Logic.Function.Basic

-- Parties share resources of which each is either taken or not. What a party
-- holds is read off its own local state; nothing else records it.
namespace Ownership
variable {ι π ρ : Type*} {held : π → Option ρ} {party : ι → π} {taken taken' : ρ → Prop}

structure Exclusive (held : π → Option ρ) (party : ι → π) (taken : ρ → Prop) : Prop where
  taken : ∀ i e, held (party i) = some e → taken e
  alone : ∀ i j e, held (party i) = some e → held (party j) = some e → i = j

def Covered (held : π → Option ρ) (party : ι → π) (taken : ρ → Prop) : Prop :=
  ∀ e, taken e → ∃ i, held (party i) = some e

theorem Exclusive.nothing (empty : ∀ i, held (party i) = none) : Exclusive held party taken :=
  ⟨by intro i e has; simp [empty i] at has,by intro i j e has; simp [empty i] at has⟩

theorem Exclusive.outside (old : Exclusive held party taken)
    (kept : ∀ i e, held (party i) = some e → taken e → taken' e) : Exclusive held party taken' :=
  ⟨fun i e has => kept i e has (old.taken i e has),old.alone⟩

variable [DecidableEq ι]

theorem Exclusive.move (old : Exclusive held party taken) {i : ι} {after : π}
    (got : ∀ e, held after = some e → taken' e ∧ (held (party i) = some e ∨ ¬taken e))
    (others : ∀ e, taken e → held (party i) ≠ some e → taken' e) :
    Exclusive held (Function.update party i after) taken' := by
  have apart : ∀ j e, j ≠ i → held (party j) = some e → held (party i) ≠ some e :=
    fun j e different has mine => different (old.alone j i e has mine)
  have fresh : ∀ j e, j ≠ i → held after = some e → held (party j) ≠ some e := by
    intro j e different mine has
    rcases (got e mine).2 with before | free
    · exact apart j e different has before
    · exact free (old.taken j e has)
  constructor
  · intro j e has
    by_cases same : j = i
    · subst same
      rw [Function.update_self] at has
      exact (got e has).1
    · rw [Function.update_of_ne same] at has
      exact others e (old.taken j e has) (apart j e same has)
  · intro j k e hj hk
    by_cases sj : j = i <;> by_cases sk : k = i
    · exact sj.trans sk.symm
    · subst sj
      rw [Function.update_self] at hj
      rw [Function.update_of_ne sk] at hk
      exact absurd hk (fresh k e sk hj)
    · subst sk
      rw [Function.update_self] at hk
      rw [Function.update_of_ne sj] at hj
      exact absurd hj (fresh j e sj hk)
    · rw [Function.update_of_ne sj] at hj
      rw [Function.update_of_ne sk] at hk
      exact old.alone j k e hj hk

theorem Covered.move (old : Covered held party taken) {i : ι} {after : π}
    (kept : ∀ e, taken' e → held after = some e ∨ (taken e ∧ held (party i) ≠ some e)) :
    Covered held (Function.update party i after) taken' := by
  intro e now
  rcases kept e now with mine | ⟨before,others⟩
  · exact ⟨i,by rw [Function.update_self]; exact mine⟩
  · obtain ⟨j,has⟩ := old e before
    have different : j ≠ i := by rintro rfl; exact others has
    exact ⟨j,by rw [Function.update_of_ne different]; exact has⟩

end Ownership
