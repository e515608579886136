import AetherRelay.Lib.Transition

namespace Transition
variable {σ α ν : Type*}

def both (step : σ → α → Option σ) (pair : σ × σ) (actions : α × α) : Option (σ × σ) :=
  (step pair.1 actions.1).bind fun s => (step pair.2 actions.2).map fun t => (s,t)

section
variable {step : σ → α → Option σ} {view : σ → ν} {s t : σ}

theorem both_some (one : step s a = some s') (two : step t b = some t') : both step (s,t) (a,b) = some (s',t') := by
  rw [both,one,Option.bind_some,two]
  rfl

-- Who has the view cannot tell two steps apart, so he cannot tell two runs apart:
-- the one is stuck where the other is.
theorem exec_unseen {same : σ × σ → α × α → Prop}
    (each : ∀ s t a b, view s = view t → same (s,t) (a,b) → (step s a).map view = (step t b).map view)
    (start : view s = view t) (path : EachStep (both step) same (s,t) pairs) :
    (exec step s (pairs.map (·.1))).map view = (exec step t (pairs.map (·.2))).map view := by
  induction pairs generalizing s t with
  | nil => exact congrArg some start
  | cons actions rest ih =>
    obtain ⟨a,b⟩ := actions
    obtain ⟨first,others⟩ := eachStep_cons.mp path
    have moved := each s t a b start first
    simp only [List.map_cons,exec]
    cases one : step s a with
    | none =>
      rw [one] at moved
      rw [Option.map_eq_none_iff.mp moved.symm]
      rfl
    | some s' =>
      rw [one] at moved
      obtain ⟨t',two,seen⟩ := Option.map_eq_some_iff.mp moved.symm
      rw [two]
      exact ih seen.symm (others (s',t') (both_some one two))

end
end Transition
