import AetherRelay.Lib.Transition

-- Work that is done once the measure is zero: every step either lowers it or finds
-- nothing left to do.
namespace Transition
variable {σ α : Type*} {step : σ → α → Option σ} {ok : σ → α → Prop} {s t : σ}

theorem Run.lowered (μ : σ → Nat) (Inv : σ → Prop) (kept : ∀ s a t, Inv s → ok s a → step s a = some t → Inv t)
    (falls : ∀ s a t, Inv s → ok s a → step s a = some t → μ t < μ s ∨ μ t = 0)
    (path : Run step ok s actions t) (start : Inv s) : μ t ≤ μ s - actions.length := by
  induction path with
  | nil => exact Nat.le_refl _
  | snoc prior allowed moved ih =>
    rw [List.length_append,List.length_singleton]
    rcases falls _ _ _ (prior.preserves Inv kept start) allowed moved with less | none
    · omega
    · omega

theorem Run.finished (μ : σ → Nat) (Inv : σ → Prop) (kept : ∀ s a t, Inv s → ok s a → step s a = some t → Inv t)
    (falls : ∀ s a t, Inv s → ok s a → step s a = some t → μ t < μ s ∨ μ t = 0)
    (path : Run step ok s actions t) (start : Inv s) (long : μ s ≤ actions.length) : μ t = 0 := by
  have low := path.lowered μ Inv kept falls start
  omega

end Transition
