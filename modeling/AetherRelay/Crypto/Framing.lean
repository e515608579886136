import Std.Data.String.ToNat
import AetherRelay.Crypto.Encoding

namespace AetherRelay

theorem toList_loop (bytes : ByteArray) (i : Nat) (read : List UInt8) :
    ByteArray.toList.loop bytes i read = read.reverse ++ bytes.data.toList.drop i := by
  induction i, read using ByteArray.toList.loop.induct bytes with
  | case1 i read inside ih =>
    have here : i < bytes.data.toList.length := inside
    have byte : bytes.get! i = bytes.data.toList[i] := by
      simp [ByteArray.get!,getElem!_pos bytes.data i here]
    rw [ByteArray.toList.loop,if_pos inside,ih,byte,List.drop_eq_getElem_cons here]
    simp
  | case2 i read past =>
    have past : bytes.data.toList.length ≤ i := Nat.le_of_not_lt past
    rw [ByteArray.toList.loop,if_neg (by simpa using past),List.drop_eq_nil_of_le past]
    simp

theorem asBytes_data (s : String) : asBytes s = s.toByteArray.data.toList := by
  simp [asBytes,ByteArray.toList,toList_loop]

theorem asBytes_injective : Function.Injective asBytes := by
  intro s t same
  rw [asBytes_data,asBytes_data] at same
  apply String.toByteArray_inj.mp
  apply ByteArray.ext
  exact Array.toList_inj.mp same

theorem asBytes_ofList (chars : List Char) :
    asBytes (String.ofList chars) = chars.flatMap String.utf8EncodeChar := by
  rw [asBytes_data,String.toByteArray_ofList,List.utf8Encode]
  exact List.toList_data_toByteArray

theorem utf8Encode_ascii (ascii : c.toNat < 128) : String.utf8EncodeChar c = [c.val.toUInt8] := by
  apply String.utf8EncodeChar_eq_singleton
  rw [Char.utf8Size_eq_one_iff]
  exact UInt32.le_iff_toNat_le.mpr (Nat.le_of_lt_succ ascii)

theorem decimal_digits (n : Nat) : ∀ b ∈ asBytes (toString n), 48 ≤ b.toNat ∧ b.toNat ≤ 57 := by
  intro b present
  rw [Nat.toString_eq_ofList_toDigits,asBytes_ofList] at present
  obtain ⟨c,digit,inside⟩ := List.mem_flatMap.mp present
  have known := Nat.isDigit_of_mem_toDigits (by decide) (by decide) digit
  have range : 48 ≤ c.val.toNat ∧ c.val.toNat ≤ 57 := by
    simpa [Char.isDigit,UInt32.le_iff_toNat_le] using known
  have ascii : c.toNat < 128 := Nat.lt_of_le_of_lt range.2 (by decide)
  rw [utf8Encode_ascii ascii] at inside
  obtain rfl := List.mem_singleton.mp inside
  rw [UInt32.toNat_toUInt8,Nat.mod_eq_of_lt (by omega)]
  exact range

theorem toString_injective : Function.Injective (toString : Nat → String) := by
  intro m n same
  exact Nat.repr_injective same

theorem hexChar_digit : ∀ n < 16, hexDigit (hexChar n) = some n ∧ VisibleAscii (hexChar n) := by
  unfold VisibleAscii
  decide

theorem hexEncode_visible (bytes : Bytes) : ∀ c ∈ (hexEncode bytes).toList, VisibleAscii c := by
  intro c inside
  rw [hexEncode,String.toList_ofList] at inside
  obtain ⟨b,_,member⟩ := List.mem_flatMap.mp inside
  have high : b.toNat / 16 < 16 := by have := b.toNat_lt; omega
  rcases List.mem_cons.mp member with rfl | last
  · exact (hexChar_digit _ high).2
  · obtain rfl := List.mem_singleton.mp last
    exact (hexChar_digit _ (Nat.mod_lt _ (by decide))).2

theorem hexDecode_hexEncode (bytes : Bytes) : hexDecode (hexEncode bytes).toList = some bytes := by
  rw [hexEncode,String.toList_ofList]
  induction bytes with
  | nil => rfl
  | cons b bytes ih =>
    have high : b.toNat / 16 < 16 := by have := b.toNat_lt; omega
    have low : b.toNat % 16 < 16 := Nat.mod_lt _ (by decide)
    have digits : 16*(b.toNat / 16)+b.toNat % 16 = b.toNat := Nat.div_add_mod b.toNat 16
    rw [List.flatMap_cons,List.cons_append,List.singleton_append,hexDecode,(hexChar_digit _ high).1,
      (hexChar_digit _ low).1,ih]
    simp only [Option.bind_eq_bind,Option.bind_some,digits,UInt8.ofNat_toNat]
    rfl

theorem separated_inj {sep : α} {one two rest₁ rest₂ : List α} (first : sep ∉ one) (second : sep ∉ two)
    (same : one ++ sep :: rest₁ = two ++ sep :: rest₂) : one = two ∧ rest₁ = rest₂ := by
  induction one generalizing two with
  | nil =>
    cases two with
    | nil => exact ⟨rfl,(List.cons.inj same).2⟩
    | cons b two =>
      have met : sep = b := (List.cons.inj same).1
      exact absurd (met ▸ List.mem_cons_self) second
  | cons a one ih =>
    cases two with
    | nil =>
      have met : a = sep := (List.cons.inj same).1
      exact absurd (met ▸ List.mem_cons_self) first
    | cons b two =>
      obtain ⟨heads,tails⟩ := List.cons.inj same
      obtain ⟨ones,rests⟩ := ih (fun inside => first (List.mem_cons_of_mem a inside))
        (fun inside => second (List.mem_cons_of_mem b inside)) tails
      exact ⟨by rw [heads,ones],rests⟩

end AetherRelay
