import Mathlib.Data.List.Nodup
import Mathlib.Data.List.Find

-- A relational table with a primary key. Distinctness of the keys is a field,
-- so no operation can produce a table with two rows under one key.
@[ext (iff := false)]
structure Table (κ ρ : Type*) (key : ρ → κ) where
  rows : List ρ
  distinct : (rows.map key).Nodup

namespace Table
variable {κ ρ : Type*} {key : ρ → κ}

def empty : Table κ ρ key := ⟨[],List.nodup_nil⟩

def retain (t : Table κ ρ key) (p : ρ → Bool) : Table κ ρ key :=
  ⟨t.rows.filter p,t.distinct.sublist (List.filter_sublist.map key)⟩

def insert (t : Table κ ρ key) (row : ρ) (fresh : key row ∉ t.rows.map key) : Table κ ρ key :=
  ⟨t.rows ++ [row],by
    rw [List.map_append,List.map_singleton]
    exact List.nodup_append'.mpr ⟨t.distinct,List.nodup_singleton _,by simpa using fresh⟩⟩

def revise (t : Table κ ρ key) (f : ρ → ρ) (same : ∀ row, key (f row) = key row) : Table κ ρ key :=
  ⟨t.rows.map f,by
    have keys : key ∘ f = key := funext same
    rw [List.map_map,keys]
    exact t.distinct⟩

section
variable [DecidableEq κ]

def lookup (t : Table κ ρ key) (k : κ) : Option ρ := t.rows.find? (fun row => key row = k)

def modify (t : Table κ ρ key) (k : κ) (f : ρ → ρ) (same : ∀ row, key (f row) = key row) : Table κ ρ key :=
  ⟨t.rows.map (fun row => if key row = k then f row else row),by
    have keys : key ∘ (fun row => if key row = k then f row else row) = key := by
      funext row; simp only [Function.comp_apply]; split <;> simp [same]
    rw [List.map_map,keys]
    exact t.distinct⟩

theorem lookup_mem {t : Table κ ρ key} (found : t.lookup k = some row) : row ∈ t.rows :=
  List.mem_of_find?_eq_some found

theorem lookup_key {t : Table κ ρ key} (found : t.lookup k = some row) : key row = k := by
  simpa using List.find?_some found

theorem lookup_of_mem {t : Table κ ρ key} (member : row ∈ t.rows) : t.lookup (key row) = some row := by
  obtain ⟨rows,distinct⟩ := t
  simp only [lookup]
  induction rows with
  | nil => cases member
  | cons head rest ih =>
    obtain ⟨missing,tail⟩ := List.nodup_cons.mp distinct
    rcases List.mem_cons.mp member with rfl | old
    · simp
    · have different : key head ≠ key row := fun equal => missing (equal ▸ List.mem_map_of_mem old)
      rw [List.find?_cons_of_neg (by simpa using different)]
      exact ih tail old

theorem lookup_exact {t : Table κ ρ key} : t.lookup k = some row ↔ row ∈ t.rows ∧ key row = k :=
  ⟨fun found => ⟨lookup_mem found,lookup_key found⟩,fun ⟨member,equal⟩ => equal ▸ lookup_of_mem member⟩

theorem lookup_none {t : Table κ ρ key} : t.lookup k = none ↔ ∀ row ∈ t.rows, key row ≠ k := by
  simp [lookup]

theorem not_mem_keys {t : Table κ ρ key} : k ∉ t.rows.map key ↔ t.lookup k = none := by
  simp [lookup_none]

theorem eq_of_key {t : Table κ ρ key} (one : a ∈ t.rows) (two : b ∈ t.rows) (same : key a = key b) : a = b := by
  have first := lookup_of_mem one
  rw [same,lookup_of_mem two] at first
  exact (Option.some.inj first).symm

@[simp] theorem lookup_empty (k : κ) : (empty : Table κ ρ key).lookup k = none := rfl

theorem lookup_insert (t : Table κ ρ key) (row : ρ) (fresh : key row ∉ t.rows.map key) (k : κ) :
    (t.insert row fresh).lookup k = if key row = k then some row else t.lookup k := by
  by_cases equal : key row = k
  · subst equal
    have member : row ∈ (t.insert row fresh).rows := List.mem_append_right _ (List.mem_singleton_self row)
    rw [if_pos rfl]
    exact lookup_of_mem member
  · simp [insert,lookup,List.find?_append,equal]

theorem lookup_modify (t : Table κ ρ key) (f : ρ → ρ) (same : ∀ row, key (f row) = key row) (k k' : κ) :
    (t.modify k f same).lookup k' = if k' = k then (t.lookup k').map f else t.lookup k' := by
  obtain ⟨rows,distinct⟩ := t
  simp only [modify,lookup]
  clear distinct
  induction rows with
  | nil => simp
  | cons head rest ih =>
    have keys : key (if key head = k then f head else head) = key head := by split <;> simp [same]
    by_cases hit : key head = k'
    · subst hit
      by_cases equal : key head = k <;> simp [equal,same]
    · rw [List.map_cons,List.find?_cons_of_neg (by simpa [keys] using hit),ih,
        List.find?_cons_of_neg (by simpa using hit)]

theorem modify_self (t : Table κ ρ key) (f : ρ → ρ) (same : ∀ row, key (f row) = key row) (k : κ)
    (fixed : ∀ row ∈ t.rows, key row = k → f row = row) : t.modify k f same = t := by
  apply Table.ext
  have pointwise : ∀ row ∈ t.rows, (if key row = k then f row else row) = id row := by
    intro row member
    split
    · rename_i equal; exact fixed row member equal
    · rfl
  exact (List.map_congr_left pointwise).trans (List.map_id _)

theorem lookup_revise (t : Table κ ρ key) (f : ρ → ρ) (same : ∀ row, key (f row) = key row) (k : κ) :
    (t.revise f same).lookup k = (t.lookup k).map f := by
  simp only [revise,lookup,List.find?_map]
  congr 2
  funext row
  simp [same]

theorem lookup_retain (t : Table κ ρ key) (p : ρ → Bool) (k : κ) :
    (t.retain p).lookup k = (t.lookup k).filter p := by
  cases found : t.lookup k with
  | none =>
    rw [lookup_none] at found
    exact lookup_none.mpr fun row member => found row (List.mem_of_mem_filter member)
  | some row =>
    have member := lookup_mem found
    have equal := lookup_key found
    by_cases keep : p row = true
    · rw [Option.filter_some_pos keep]
      exact lookup_exact.mpr ⟨List.mem_filter.mpr ⟨member,keep⟩,equal⟩
    · rw [Option.filter_some_neg (by simpa using keep)]
      refine lookup_none.mpr fun other present same => keep ?_
      have old := List.mem_filter.mp present
      rw [← eq_of_key old.1 member (same.trans equal.symm)]
      exact old.2

theorem mem_modify {t : Table κ ρ key} {f : ρ → ρ} {same : ∀ row, key (f row) = key row} :
    row ∈ (t.modify k f same).rows ↔ ∃ old ∈ t.rows, (if key old = k then f old else old) = row := by
  simp [modify]

end

@[simp] theorem mem_retain {t : Table κ ρ key} {p : ρ → Bool} :
    row ∈ (t.retain p).rows ↔ row ∈ t.rows ∧ p row = true := by
  simp [retain]

@[simp] theorem mem_insert {t : Table κ ρ key} {fresh : key new ∉ t.rows.map key} :
    row ∈ (t.insert new fresh).rows ↔ row ∈ t.rows ∨ row = new := by
  simp [insert]

end Table
