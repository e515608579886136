import Mathlib.Data.List.Perm.Subperm
import Mathlib.Data.List.Nodup
import Mathlib.Logic.Function.Basic

-- Goods that come in, are in somebody's hand for a while and are then put on a
-- shelf. Any number of holders, of whom any finite number may be asked.
namespace Hands
variable {α : Type*}

def Covered (hand : Nat → Option α) (shelf came : List α) : Prop :=
  ∀ holders : List Nat, holders.Nodup → (shelf ++ holders.filterMap hand).Subperm came

section
variable {hand : Nat → Option α} {shelf came : List α} {a : α}

theorem Covered.shelved (covered : Covered hand shelf came) : shelf.Subperm came := by
  have alone := covered [] List.nodup_nil
  rwa [List.filterMap_nil,List.append_nil] at alone

theorem Covered.empty (empty : ∀ j, hand j = none) (fits : shelf.Subperm came) : Covered hand shelf came := by
  intro holders _
  have none' : holders.filterMap hand = [] := List.filterMap_eq_nil_iff.mpr fun j _ => empty j
  rwa [none',List.append_nil]

theorem filterMap_update (hand : Nat → Option α) (j : Nat) (held : Option α) {holders : List Nat} (distinct : holders.Nodup) :
    ∃ others : List Nat, others.Nodup ∧ j ∉ others ∧
      (holders.filterMap (Function.update hand j held)).Subperm (held.toList ++ others.filterMap hand) := by
  have elsewhere : ∀ others : List Nat, j ∉ others → others.filterMap (Function.update hand j held) = others.filterMap hand := by
    intro others missing
    apply List.filterMap_congr
    intro i member
    exact Function.update_of_ne (ne_of_mem_of_not_mem member missing) ..
  refine ⟨holders.erase j,distinct.erase j,distinct.not_mem_erase,?_⟩
  by_cases member : j ∈ holders
  · have split := (List.perm_cons_erase member).filterMap (Function.update hand j held)
    have first : (j :: holders.erase j).filterMap (Function.update hand j held) =
        held.toList ++ (holders.erase j).filterMap hand := by
      rw [← elsewhere _ distinct.not_mem_erase]
      cases held with
      | none => exact List.filterMap_cons_none (Function.update_self ..)
      | some a => exact List.filterMap_cons_some (Function.update_self ..)
    rw [first] at split
    exact split.subperm
  · rw [List.erase_of_not_mem member,elsewhere holders member]
    exact (List.sublist_append_right ..).subperm

theorem Covered.update (held : Option α) (fits : ∀ others : List Nat, others.Nodup → j ∉ others →
    (shelf ++ (held.toList ++ others.filterMap hand)).Subperm came) : Covered (Function.update hand j held) shelf came := by
  intro holders distinct
  obtain ⟨others,distinct',apart,fewer⟩ := filterMap_update hand j held distinct
  exact ((List.subperm_append_left shelf).mpr fewer).trans (fits others distinct' apart)

theorem Covered.take (old : Covered hand shelf came) (j : Nat) (a : α) :
    Covered (Function.update hand j (some a)) shelf (a :: came) := by
  apply Covered.update
  intro others distinct _
  have same := (List.subperm_cons a).mpr (old others distinct)
  have moved : (shelf ++ ([a] ++ others.filterMap hand)).Perm (a :: (shelf ++ others.filterMap hand)) := List.perm_middle
  exact moved.subperm.trans same

theorem Covered.store (old : Covered hand shelf came) (has : hand j = some a) :
    Covered (Function.update hand j none) (shelf ++ [a]) came := by
  apply Covered.update
  intro others distinct apart
  have all := old (j :: others) (List.nodup_cons.mpr ⟨apart,distinct⟩)
  rw [List.filterMap_cons_some has] at all
  simpa using all

theorem Covered.drop (old : Covered hand shelf came) (j : Nat) : Covered (Function.update hand j none) shelf came := by
  apply Covered.update
  intro others distinct _
  exact old others distinct

theorem Covered.clear (old : Covered hand shelf came) (fewer : less.Subperm shelf) : Covered hand less came := by
  intro holders distinct
  exact ((List.subperm_append_right _).mpr fewer).trans (old holders distinct)

end
end Hands
