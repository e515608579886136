import Mathlib.Algebra.Order.BigOperators.Group.Finset
import AetherRelay.Lib.Watch

-- Counting by a potential: what a step uses it pays for out of what the potential
-- loses by it and of what the outside grants with it.
namespace Transition
variable {σ α : Type*}

structure Account where
  used : Nat
  granted : Nat

def charge (cost grant : σ → α → Nat) (s : σ) (n : Account) (a : α) (_ : σ) : Account :=
  ⟨n.used + cost s a,n.granted + grant s a⟩

section
variable {step : σ → α → Option σ} {cost grant : σ → α → Nat} {ok : Watched σ Account → α → Prop} {s : σ}
  {o p : Watched σ Account}

theorem Run.solvent (Φ : σ → Nat) (price rate : Nat) (Inv : σ → Prop)
    (kept : ∀ o a t, Inv o.state → ok o a → step o.state a = some t → Inv t)
    (pays : ∀ o a t, Inv o.state → ok o a → step o.state a = some t →
      Φ t + price * cost o.state a ≤ Φ o.state + rate * grant o.state a)
    (path : Run (watch step (charge cost grant)) ok ⟨s,⟨0,0⟩⟩ actions p) (start : Inv s) :
    Φ p.state + price * p.notes.used ≤ Φ s + rate * p.notes.granted := by
  have balance : Inv p.state ∧ Φ p.state + price * p.notes.used ≤ Φ s + rate * p.notes.granted := by
    refine path.preserves
      (fun q => Inv q.state ∧ Φ q.state + price * q.notes.used ≤ Φ s + rate * q.notes.granted) ?_
      ⟨start,Nat.le_refl _⟩
    intro o a q old allowed moved
    obtain ⟨inside,before⟩ := old
    obtain ⟨stepped,notes⟩ := watch_some.mp moved
    refine ⟨kept o a q.state inside allowed stepped,?_⟩
    have paid := pays o a q.state inside allowed stepped
    simp only [notes,charge,Nat.mul_add]
    omega
  exact balance.2

end
end Transition

namespace Credit
variable {ι : Type*} [DecidableEq ι] {A : Finset ι} {f g : ι → Nat} {e : ι} {spent given : Nat}

theorem sum_spent (member : e ∈ A) (others : ∀ k ∈ A, k ≠ e → g k ≤ f k) (mine : g e + spent ≤ f e + given) :
    ∑ k ∈ A, g k + spent ≤ ∑ k ∈ A, f k + given := by
  have rest : ∑ k ∈ A.erase e, g k ≤ ∑ k ∈ A.erase e, f k := by
    apply Finset.sum_le_sum
    intro k inside
    obtain ⟨other,there⟩ := Finset.mem_erase.mp inside
    exact others k there other
  rw [← Finset.add_sum_erase A g member,← Finset.add_sum_erase A f member]
  omega

theorem sum_given (others : ∀ k ∈ A, k ≠ e → g k ≤ f k) (mine : g e ≤ f e + given) :
    ∑ k ∈ A, g k ≤ ∑ k ∈ A, f k + given := by
  by_cases member : e ∈ A
  · have nothing : g e + 0 ≤ f e + given := mine
    exact sum_spent member others nothing
  · refine Nat.le_add_right_of_le (Finset.sum_le_sum fun k inside => others k inside ?_)
    rintro rfl
    exact member inside

end Credit
