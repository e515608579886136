import Mathlib.Algebra.Ring.Nat
import Mathlib.Data.List.Basic

namespace Prefix
variable {w k m n i j : Nat} {a b : BitVec w}

def Agree (n : Nat) (a b : BitVec w) : Prop := ∀ i < n, a.getMsbD i = b.getMsbD i

instance (n : Nat) (a b : BitVec w) : Decidable (Agree n a b) := inferInstanceAs (Decidable (∀ i < n, _))

def word (k : Nat) (a : BitVec w) (i : Nat) : BitVec k := a.extractLsb' (w - k*(i+1)) k

def words (k n : Nat) (a : BitVec w) : List (BitVec k) := (List.range n).map (word k a)

structure Block (w : Nat) where
  network : BitVec w
  length : Nat
  fits : length ≤ w

def Block.Contains (block : Block w) (a : BitVec w) : Prop := Agree block.length a block.network

instance (block : Block w) (a : BitVec w) : Decidable (block.Contains a) := inferInstanceAs (Decidable (Agree _ _ _))

theorem agree_full : Agree w a b ↔ a = b := by
  constructor
  · exact BitVec.eq_of_getMsbD_eq
  · rintro rfl i _
    rfl

theorem agree_add : Agree (m+n) a b ↔ Agree m a b ∧ ∀ j < n, a.getMsbD (m+j) = b.getMsbD (m+j) := by
  constructor
  · intro agree
    exact ⟨fun i short => agree i (by omega),fun j short => agree (m+j) (by omega)⟩
  · rintro ⟨front,back⟩ i short
    by_cases early : i < m
    · exact front i early
    · have at' := back (i-m) (by omega)
      rwa [show m+(i-m) = i by omega] at at'

theorem word_getMsbD (room : k*(i+1) ≤ w) (inside : j < k) : (word k a i).getMsbD j = a.getMsbD (k*i+j) := by
  rw [Nat.mul_succ] at room
  have start : w - (w - k*(i+1) + k - j) = k*i+j := by
    rw [Nat.mul_succ]
    omega
  have fits : w - k*(i+1) + k - j ≤ w := by
    rw [Nat.mul_succ]
    omega
  unfold word
  rw [BitVec.getMsbD_extractLsb',start]
  simp [inside,fits]

theorem word_eq (room : k*(i+1) ≤ w) :
    word k a i = word k b i ↔ ∀ j < k, a.getMsbD (k*i+j) = b.getMsbD (k*i+j) := by
  rw [← agree_full]
  constructor
  · intro same j inside
    have bit := same j inside
    rwa [word_getMsbD room inside,word_getMsbD room inside] at bit
  · intro same j inside
    rw [word_getMsbD room inside,word_getMsbD room inside]
    exact same j inside

theorem words_succ : words k (n+1) a = words k (n+1) b ↔ words k n a = words k n b ∧ word k a n = word k b n := by
  unfold words
  rw [List.range_succ,List.map_append,List.map_append,List.append_eq_append_iff_of_size_eq_right]
  · simp
  · rfl

theorem agree_words (room : k*i ≤ w) : Agree (k*i) a b ↔ words k i a = words k i b := by
  induction i with
  | zero =>
    constructor
    · intro _
      rfl
    · intro _ j beyond
      omega
  | succ i ih =>
    have earlier : k*i ≤ w := by
      rw [Nat.mul_succ] at room
      omega
    rw [Nat.mul_succ,agree_add,ih earlier,← word_eq room,words_succ]

theorem agree_within (room : k*(i+1) ≤ w) (short : n ≤ k) :
    Agree (k*i+n) a b ↔ words k i a = words k i b ∧ Agree n (word k a i) (word k b i) := by
  have earlier : k*i ≤ w := by
    rw [Nat.mul_succ] at room
    omega
  rw [agree_add,agree_words earlier]
  apply and_congr_right
  intro _
  constructor
  · intro same j inside
    rw [word_getMsbD room (by omega),word_getMsbD room (by omega)]
    exact same j inside
  · intro same j inside
    have bit := same j inside
    rwa [word_getMsbD room (by omega),word_getMsbD room (by omega)] at bit

theorem words_take (few : i ≤ n) : (words k n a).take i = words k i a := by
  unfold words
  rw [← List.map_take,List.take_range,Nat.min_eq_left few]

theorem words_full (full : k*i = w) : a = b ↔ words k i a = words k i b := by
  subst full
  rw [← agree_full,agree_words (Nat.le_refl _)]

theorem words_append (high : BitVec (k*n)) (low : BitVec k) :
    words k (n+1) (high ++ low : BitVec (k*n+k)) = words k n high ++ [low] := by
  unfold words
  rw [List.range_succ,List.map_append,List.map_singleton]
  congr 1
  · apply List.map_congr_left
    intro i inside
    have room : k*(i+1) ≤ k*n := Nat.mul_le_mul_left k (List.mem_range.mp inside)
    apply BitVec.eq_of_getMsbD_eq
    intro j short
    rw [word_getMsbD (by omega) short,word_getMsbD room short,BitVec.getMsbD_append,if_neg]
    rw [Nat.mul_succ] at room
    omega
  · congr 1
    apply BitVec.eq_of_getMsbD_eq
    intro j short
    rw [word_getMsbD (Nat.le_refl _) short,BitVec.getMsbD_append,if_pos (Nat.le_add_right _ _),Nat.add_sub_cancel_left]

theorem words_onto (l : List (BitVec k)) (length : l.length = n) : ∃ a : BitVec (k*n), words k n a = l := by
  induction n generalizing l with
  | zero =>
    obtain rfl := List.length_eq_zero_iff.mp length
    exact ⟨0,rfl⟩
  | succ n ih =>
    have filled : l ≠ [] := List.ne_nil_of_length_eq_add_one length
    obtain ⟨high,front⟩ := ih l.dropLast (by rw [List.length_dropLast,length,Nat.add_sub_cancel])
    refine ⟨high ++ l.getLast filled,?_⟩
    rw [words_append,front,List.dropLast_append_getLast]

theorem words_toNat : (words k n a).map BitVec.toNat = (words k n b).map BitVec.toNat ↔ words k n a = words k n b := by
  have distinct : Function.Injective (BitVec.toNat (w := k)) := fun _ _ => BitVec.eq_of_toNat_eq
  exact (List.map_injective_iff.mpr distinct).eq_iff

theorem word_toNat : (word k a i).toNat = a.toNat / 2^(w - k*(i+1)) % 2^k := by
  unfold word
  rw [BitVec.extractLsb'_toNat,Nat.shiftRight_eq_div_pow]

theorem append_toNat (high : BitVec m) (low : BitVec n) : (high ++ low).toNat = high.toNat*2^n+low.toNat := by
  rw [BitVec.toNat_append,← Nat.shiftLeft_add_eq_or_of_lt low.isLt,Nat.shiftLeft_eq]

theorem agree_div (short : n ≤ w) : Agree n a b ↔ a.toNat / 2^(w-n) = b.toNat / 2^(w-n) := by
  have bit : ∀ (c : BitVec w) (i : Nat), i < n → c.getMsbD i = (c.toNat / 2^(w-n)).testBit (n-1-i) := by
    intro c i inside
    rw [Nat.testBit_div_two_pow,BitVec.getMsbD_eq_getLsbD,← BitVec.testBit_toNat,
      show n-1-i+(w-n) = w-1-i by omega]
    simp [show i < w by omega]
  constructor
  · intro agree
    apply Nat.eq_of_testBit_eq
    intro j
    by_cases inside : j < n
    · have same := agree (n-1-j) (by omega)
      rw [bit a _ (by omega),bit b _ (by omega)] at same
      rwa [show n-1-(n-1-j) = j by omega] at same
    · have beyond : ∀ c : BitVec w, (c.toNat / 2^(w-n)).testBit j = false := by
        intro c
        rw [Nat.testBit_div_two_pow,BitVec.testBit_toNat]
        exact BitVec.getLsbD_of_ge c _ (by omega)
      rw [beyond a,beyond b]
  · intro same i inside
    rw [bit a i inside,bit b i inside,same]

theorem agree_range (short : n ≤ w) (clear : b.toNat % 2^(w-n) = 0) :
    Agree n a b ↔ b.toNat ≤ a.toNat ∧ a.toNat < b.toNat + 2^(w-n) := by
  have positive : 0 < 2^(w-n) := Nat.two_pow_pos _
  have whole : 2^(w-n)*(b.toNat / 2^(w-n)) = b.toNat := by
    have parts := Nat.div_add_mod b.toNat (2^(w-n))
    omega
  rw [agree_div short,Nat.div_eq_iff positive]
  generalize b.toNat / 2^(w-n) = q at *
  rw [Nat.mul_comm] at whole
  omega

theorem agree_mask (short : n ≤ w) :
    Agree n a b ↔ a &&& BitVec.allOnes w <<< (w-n) = b &&& BitVec.allOnes w <<< (w-n) := by
  have bit : ∀ (c : BitVec w) (i : Nat), i < w →
      (c &&& BitVec.allOnes w <<< (w-n)).getMsbD i = (c.getMsbD i && decide (i < n)) := by
    intro c i inside
    rw [BitVec.getMsbD_and]
    congr 1
    simp
    omega
  constructor
  · intro agree
    apply BitVec.eq_of_getMsbD_eq
    intro i inside
    rw [bit a i inside,bit b i inside]
    by_cases early : i < n
    · rw [agree i early]
    · simp [early]
  · intro same i inside
    have masked := congrArg (fun c : BitVec w => c.getMsbD i) same
    rw [bit a i (by omega),bit b i (by omega)] at masked
    simpa [inside] using masked

end Prefix
