import AetherRelay.Lib.Transition

namespace Transition
variable {σ α γ : Type*}

-- A system beside an observer who keeps notes. The notes follow the steps and
-- have no part in them.
structure Watched (σ γ : Type*) where
  state : σ
  notes : γ

def watch (step : σ → α → Option σ) (note : σ → γ → α → σ → γ) (o : Watched σ γ) (action : α) :
    Option (Watched σ γ) :=
  (step o.state action).map fun t => ⟨t,note o.state o.notes action t⟩

section
variable {step : σ → α → Option σ} {note : σ → γ → α → σ → γ} {o p : Watched σ γ} {action : α}

theorem watch_some : watch step note o action = some p ↔
    step o.state action = some p.state ∧ p.notes = note o.state o.notes action p.state := by
  unfold watch
  constructor
  · intro moved
    obtain ⟨t,stepped,rfl⟩ := Option.map_eq_some_iff.mp moved
    exact ⟨stepped,rfl⟩
  · intro parts
    rw [parts.1,Option.map_some,← parts.2]

theorem watch_exec (reached : exec (watch step note) o actions = some p) : exec step o.state actions = some p.state := by
  induction actions generalizing o with
  | nil =>
    cases Option.some.inj reached
    rfl
  | cons action rest ih =>
    obtain ⟨next,moved,further⟩ := Option.bind_eq_some_iff.mp reached
    rw [exec,(watch_some.mp moved).1]
    exact ih further

end
end Transition
