import AetherRelay.Lib.Transition

namespace Transition
variable {σ τ α β : Type*}

-- The operations that the actions of a concurrent system amount to: each of them
-- takes effect at one action, and only actions that may be silent bring none.
inductive Commits (silent : α → Prop) (told : List α → α → β → Prop) : List α → List β → Prop where
  | nil : Commits silent told [] []
  | silent (before : Commits silent told earlier calls) (quiet : silent a) : Commits silent told (earlier++[a]) calls
  | point (before : Commits silent told earlier calls) (tells : told earlier a b) :
      Commits silent told (earlier++[a]) (calls++[b])

theorem Run.commits {step : σ → α → Option σ} {any : σ → α → Prop} {s t : σ} {v : τ} (whole : τ → β → Option τ)
    (ok : τ → β → Prop) (silent : α → Prop) (told : List α → α → β → Prop) (R : List α → σ → τ → Prop)
    (each : ∀ earlier s a t v, R earlier s v → step s a = some t →
      (silent a ∧ R (earlier++[a]) t v) ∨
        ∃ b w, told earlier a b ∧ ok v b ∧ whole v b = some w ∧ R (earlier++[a]) t w)
    (start : R [] s v) (path : Run step any s actions t) :
    ∃ calls w, Run whole ok v calls w ∧ Commits silent told actions calls ∧ R actions t w := by
  induction path with
  | nil => exact ⟨[],v,.nil,.nil,start⟩
  | snoc prior allowed moved ih =>
    obtain ⟨calls,w,ran,commits,related⟩ := ih
    rcases each _ _ _ _ _ related moved with ⟨quiet,next⟩ | ⟨b,w',tells,fine,stepped,next⟩
    · exact ⟨calls,w,ran,commits.silent quiet,next⟩
    · exact ⟨calls++[b],w',.snoc ran fine stepped,commits.point tells,next⟩

theorem seat {p : α → Bool} {xs ys : List α} (same : ys.filter p = xs.filter p) (here : xs[r]? = some a)
    (present : p a = true) : ∃ q, ys[q]? = some a ∧ ∀ b, (ys.set q b).filter p = (xs.set r b).filter p := by
  obtain ⟨inside,rfl⟩ := List.getElem?_eq_some_iff.mp here
  have parts : xs = xs.take r ++ xs[r] :: xs.drop (r+1) := by simp
  rw [parts,List.filter_append,List.filter_cons_of_pos present] at same
  obtain ⟨front,rest,rfl,ahead,tail⟩ := List.filter_eq_append_iff.mp same
  obtain ⟨gone,back,rfl,left,_,behind⟩ := List.filter_eq_cons_iff.mp tail
  have none' : gone.filter p = [] := List.filter_eq_nil_iff.mpr left
  refine ⟨(front ++ gone).length,by simp [← List.append_assoc],fun b => ?_⟩
  have moved : (front ++ (gone ++ xs[r] :: back)).set (front ++ gone).length b = (front ++ gone) ++ b :: back := by
    rw [← List.append_assoc,List.set_append_right _ _ (Nat.le_refl _),Nat.sub_self,List.set_cons_zero]
  rw [moved,List.set_eq_take_append_cons_drop,if_pos inside]
  simp only [List.filter_append,List.filter_cons,ahead,none',behind,List.append_nil]

end Transition
