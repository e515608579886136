import Mathlib.Data.List.Basic

-- Items that are served in turn: nothing is begun before everything ahead of it
-- is settled.
namespace Turn
variable {α : Type*} {settled touched settled' touched' : α → Prop} {items : List α}

def InTurn (settled touched : α → Prop) (items : List α) : Prop :=
  items.Pairwise fun a b => touched b → settled a

theorem InTurn.join (old : InTurn settled touched items) (fresh : ¬touched a) :
    InTurn settled touched (items ++ [a]) :=
  List.pairwise_append.mpr ⟨old,List.pairwise_singleton _ _,fun b _ c last busy => by
    obtain rfl := List.mem_singleton.mp last
    exact absurd busy fresh⟩

theorem InTurn.advance (old : InTurn settled touched items) (stays : ∀ a ∈ items, settled a → settled' a)
    (next : items.Pairwise fun a b => touched' b → ¬touched b → settled a) : InTurn settled' touched' items := by
  apply (old.and next).imp_of_mem
  rintro a b member _ ⟨before,begun⟩ busy
  apply stays a member
  by_cases was : touched b
  · exact before was
  · exact begun busy was

theorem InTurn.sublist (old : InTurn settled touched items) (part : chosen.Sublist items) :
    InTurn settled touched chosen := List.Pairwise.sublist part old

theorem InTurn.ahead (old : InTurn settled touched (earlier ++ b :: later)) (busy : touched b) :
    ∀ a ∈ earlier, settled a :=
  fun _ member => (List.pairwise_append.mp old).2.2 _ member b List.mem_cons_self busy

theorem InTurn.split (old : InTurn settled touched items) (begun : ∀ a, settled a → touched a) :
    ∃ finished waiting, items = finished ++ waiting ∧ (∀ a ∈ finished, settled a) ∧ (∀ a ∈ waiting, ¬settled a) ∧
      ∀ a ∈ waiting.tail, ¬touched a := by
  induction items with
  | nil => exact ⟨[],[],rfl,by simp,by simp,by simp⟩
  | cons head rest ih =>
    obtain ⟨first,others⟩ := List.pairwise_cons.mp old
    by_cases done : settled head
    · obtain ⟨finished,waiting,rfl,before,after,later⟩ := ih others
      exact ⟨head :: finished,waiting,rfl,List.forall_mem_cons.mpr ⟨done,before⟩,after,later⟩
    · have later : ∀ a ∈ rest, ¬touched a := fun a member busy => done (first a member busy)
      exact ⟨[],head :: rest,rfl,by simp,
        List.forall_mem_cons.mpr ⟨done,fun a member is => later a member (begun a is)⟩,later⟩

end Turn
