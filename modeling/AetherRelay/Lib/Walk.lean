import Mathlib.Data.List.Basic

-- Moves that join end to end, as the successes of compare-and-set calls on one
-- register do.
inductive Walk {α : Type*} : α → List (α × α) → α → Prop where
  | rest : Walk a [] a
  | move (a b : α) (further : Walk b moves c) : Walk a ((a,b) :: moves) c

namespace Walk
variable {α : Type*} {a b c : α} {one two : List (α × α)}

theorem split (walk : Walk a (one ++ two) c) : ∃ b, Walk a one b ∧ Walk b two c := by
  induction one generalizing a with
  | nil => exact ⟨a,.rest,walk⟩
  | cons head tail ih =>
    cases walk with
    | move _ next further =>
      obtain ⟨b,left,right⟩ := ih further
      exact ⟨b,.move _ _ left,right⟩

theorem arrives (walk : Walk a one b) (away : a ≠ b) : ∃ c, (c,b) ∈ one := by
  induction walk with
  | rest => exact absurd rfl away
  | @move moves end' a b further ih =>
    by_cases there : b = end'
    · exact ⟨a,by rw [there]; exact List.mem_cons_self⟩
    · obtain ⟨c,member⟩ := ih there
      exact ⟨c,List.mem_cons_of_mem _ member⟩

theorem undone (walk : Walk s (earlier ++ (a,b) :: between ++ (a,c) :: later) t) (away : b ≠ a) :
    ∃ d, (d,a) ∈ between := by
  rw [List.append_assoc,List.cons_append] at walk
  obtain ⟨_,_,walk⟩ := walk.split
  cases walk with
  | move _ _ walk =>
    obtain ⟨d,left,right⟩ := walk.split
    cases right
    exact left.arrives away

end Walk
