import Mathlib.Data.Nat.Digits.Lemmas
import AetherRelay.Api.Endpoints
import AetherRelay.Crypto.Framing

namespace AetherRelay.IpAddr

def numeral (base n : Nat) : List Nat := if n = 0 then [0] else (Nat.digits base n).reverse

def printNumber (base n : Nat) : List Char := (numeral base n).map hexChar

def printV4 (a b c d : Nat) : List Char :=
  printNumber 10 a ++ '.' :: (printNumber 10 b ++ '.' :: (printNumber 10 c ++ '.' :: printNumber 10 d))

def printGroups : Bool → List Nat → List Char
  | _,[] => []
  | seen,group :: rest => (if seen then [':'] else []) ++ (printNumber 16 group ++ printGroups true rest)

-- The texts of an IPv6 address: all eight groups, or a run of zeros left out
-- wherever the address has one.
inductive LiteralV6 : List Nat → List Char → Prop where
  | full (eight : segments.length = 8) : LiteralV6 segments (printGroups false segments)
  | short (head tail : List Nat) (room : head.length + tail.length ≤ 7) :
      LiteralV6 (head ++ List.replicate (8 - head.length - tail.length) 0 ++ tail)
        (printGroups false head ++ ':' :: ':' :: printGroups false tail)

def Stops (rest : List Char) : Prop := ∀ c ∈ rest.head?, hexDigit c = none

section numbers

theorem numeral_lt (base n : Nat) (wide : 1 < base) : ∀ digit ∈ numeral base n, digit < base := by
  intro digit inside
  unfold numeral at inside
  split at inside
  · rw [List.mem_singleton] at inside
    omega
  · exact Nat.digits_lt_base wide (List.mem_reverse.mp inside)

theorem numeral_value (base n : Nat) : (numeral base n).foldl (fun value digit => value*base+digit) 0 = n := by
  unfold numeral
  split
  · rename_i zero
    simp [zero]
  · have value := Nat.ofDigits_digits base n
    rw [Nat.ofDigits_eq_foldr] at value
    rw [List.foldl_reverse]
    simpa only [Nat.cast_id,Nat.add_comm,Nat.mul_comm] using value

theorem numeral_length (wide : 1 < base) (room : 0 < k) (small : n < base^k) : (numeral base n).length ≤ k := by
  unfold numeral
  split
  · exact room
  · rw [List.length_reverse]
    exact (Nat.digits_length_le_iff wide n).mpr small

theorem numeral_filled (base n : Nat) : 0 < (numeral base n).length := by
  unfold numeral
  split
  · decide
  · rename_i positive
    rw [List.length_reverse]
    exact List.length_pos_iff.mpr (Nat.digits_ne_nil_iff_ne_zero.mpr positive)

theorem numeral_head (long : 1 < (numeral base n).length) : (numeral base n).head? ≠ some 0 := by
  unfold numeral at long ⊢
  split
  · rename_i zero
    rw [if_pos zero] at long
    exact absurd long (by decide)
  · rename_i positive
    intro leading
    rw [List.head?_reverse,List.getLast?_eq_getLast_of_ne_nil (Nat.digits_ne_nil_iff_ne_zero.mpr positive)] at leading
    exact Nat.getLast_digit_ne_zero base positive (Option.some.inj leading)

theorem hexChar_zero : ∀ n < 16, hexChar n = '0' → n = 0 := by decide

theorem printNumber_all {p : Char → Prop} (digits : ∀ digit < 16, p (hexChar digit)) (wide : 1 < base)
    (narrow : base ≤ 16) : ∀ c ∈ printNumber base n, p c := by
  intro c inside
  obtain ⟨digit,member,printed⟩ := List.mem_map.mp inside
  have small := numeral_lt base n wide digit member
  exact printed ▸ digits digit (by omega)

theorem hexChar_sign (sign : hexDigit c = none) : ∀ digit < 16, hexChar digit ≠ c := by
  intro digit small same
  have read := (hexChar_digit digit small).1
  rw [same,sign] at read
  cases read

end numbers

section reading

theorem readDigits_reads (base maxDigits value count : Nat) {digits : List Nat} (narrow : base ≤ 16)
    (each : ∀ digit ∈ digits, digit < base) (room : count + digits.length ≤ maxDigits) (stops : Stops rest) :
    readDigits base maxDigits value count (digits.map hexChar ++ rest) =
      (digits.foldl (fun value digit => value*base+digit) value,count+digits.length,rest) := by
  induction digits generalizing value count with
  | nil =>
    cases rest with
    | nil => rfl
    | cons c rest =>
      have sign : hexDigit c = none := stops c rfl
      simp [readDigits,sign]
  | cons digit digits ih =>
    have small : digit < base := each digit List.mem_cons_self
    have read : hexDigit (hexChar digit) = some digit := (hexChar_digit digit (by omega)).1
    rw [List.length_cons] at room
    rw [List.map_cons,List.cons_append,readDigits,read]
    dsimp only
    rw [if_pos ⟨small,by omega⟩,ih _ _ (fun d inside => each d (List.mem_cons_of_mem _ inside)) (by omega)]
    rw [List.foldl_cons,List.length_cons,Nat.add_assoc,Nat.add_comm 1]

theorem readDigits_printed (base maxDigits n : Nat) (wide : 1 < base) (narrow : base ≤ 16)
    (room : (numeral base n).length ≤ maxDigits) (stops : Stops rest) :
    readDigits base maxDigits 0 0 (printNumber base n ++ rest) = (n,(numeral base n).length,rest) := by
  have read := readDigits_reads base maxDigits 0 0 narrow (numeral_lt base n wide) (by omega) stops
  rwa [numeral_value,Nat.zero_add] at read

theorem readOctet_printed (octet : a < 256) (stops : Stops rest) :
    readOctet (printNumber 10 a ++ rest) = some (a,rest) := by
  have short : (numeral 10 a).length ≤ 3 := numeral_length (by decide) (by decide) (by omega)
  have filled := numeral_filled 10 a
  unfold readOctet
  rw [readDigits_printed 10 4 a (by decide) (by decide) (by omega) stops]
  dsimp only
  rw [if_neg]
  intro bad
  rcases bad with empty | long | large | ⟨several,zero⟩
  · omega
  · omega
  · omega
  · cases shape : numeral 10 a with
    | nil =>
      rw [shape] at filled
      exact absurd filled (by decide)
    | cons digit digits =>
      rw [printNumber,shape,List.map_cons,List.cons_append,List.head?_cons,Option.some_inj] at zero
      have small : digit < 10 := numeral_lt 10 a (by decide) digit (shape ▸ List.mem_cons_self)
      have leading := numeral_head several
      rw [shape,List.head?_cons,hexChar_zero digit (by omega) zero] at leading
      exact leading rfl

theorem readGroup_printed (group : g < 65536) (stops : Stops rest) :
    readGroup (printNumber 16 g ++ rest) = some (g,rest) := by
  have short : (numeral 16 g).length ≤ 4 := numeral_length (by decide) (by decide) (by omega)
  have filled := numeral_filled 16 g
  unfold readGroup
  rw [readDigits_printed 16 5 g (by decide) (by decide) (by omega) stops]
  dsimp only
  rw [if_neg (by omega)]

theorem stops_nil : Stops [] := by
  intro c absent
  cases absent

theorem stops_cons (sign : hexDigit c = none) : Stops (c :: rest) := by
  intro d first
  cases first
  exact sign

theorem readV4_printed (ha : a < 256) (hb : b < 256) (hc : c < 256) (hd : d < 256) :
    readV4 (printV4 a b c d) = some ((a,b,c,d),[]) := by
  have dot : hexDigit '.' = none := by decide
  have last := readOctet_printed hd stops_nil
  rw [List.append_nil] at last
  unfold readV4 printV4
  simp only [readOctet_printed ha (stops_cons dot),readOctet_printed hb (stops_cons dot),
    readOctet_printed hc (stops_cons dot),last,readChar,if_true,Option.bind_eq_bind,Option.bind_some]
  rfl

theorem readDigits_taken (base maxDigits value count : Nat) (s : List Char) :
    ∃ taken, s = taken ++ (readDigits base maxDigits value count s).2.2 ∧
      (readDigits base maxDigits value count s).2.1 = count + taken.length ∧
      ∀ c ∈ taken, ∃ digit < base, hexDigit c = some digit := by
  induction s generalizing value count with
  | nil => exact ⟨[],rfl,rfl,by simp⟩
  | cons c rest ih =>
    unfold readDigits
    cases read : hexDigit c with
    | none => exact ⟨[],rfl,rfl,by simp⟩
    | some digit =>
      dsimp only
      split
      · rename_i fits
        obtain ⟨taken,cut,counted,each⟩ := ih (value*base+digit) (count+1)
        refine ⟨c :: taken,?_,?_,?_⟩
        · rw [List.cons_append,← cut]
        · rw [counted,List.length_cons]
          omega
        · intro d inside
          rcases List.mem_cons.mp inside with rfl | later
          · exact ⟨digit,fits.1,read⟩
          · exact each d later
      · exact ⟨[],rfl,rfl,by simp⟩

theorem readOctet_taken (read : readOctet s = some (value,rest)) :
    ∃ taken, s = taken ++ rest ∧ taken ≠ [] ∧ ∀ c ∈ taken, ∃ digit < 10, hexDigit c = some digit := by
  obtain ⟨taken,cut,counted,each⟩ := readDigits_taken 10 4 0 0 s
  unfold readOctet at read
  dsimp only at read
  split at read
  · cases read
  · rename_i good
    obtain ⟨_,left⟩ := Prod.mk.inj (Option.some.inj read)
    refine ⟨taken,left ▸ cut,?_,each⟩
    intro empty
    apply good
    left
    rw [counted,empty]
    rfl

theorem readGroup_taken (read : readGroup s = some (value,rest)) : ∃ taken, s = taken ++ rest := by
  obtain ⟨taken,cut,_,_⟩ := readDigits_taken 16 5 0 0 s
  unfold readGroup at read
  dsimp only at read
  split at read
  · cases read
  · obtain ⟨_,left⟩ := Prod.mk.inj (Option.some.inj read)
    exact ⟨taken,left ▸ cut⟩

theorem readChar_taken (read : readChar c s = some rest) : s = c :: rest := by
  cases s with
  | nil => cases read
  | cons d tail =>
    rw [readChar] at read
    by_cases same : d = c
    · rw [if_pos same] at read
      rw [same,Option.some.inj read]
    · rw [if_neg same] at read
      cases read

theorem readChar_absent (absent : c ∉ s) : readChar c s = none := by
  cases read : readChar c s with
  | none => rfl
  | some rest =>
    rw [readChar_taken read] at absent
    exact absurd List.mem_cons_self absent

theorem readV4_taken (read : readV4 s = some (octets,rest)) :
    ∃ front label, s = front ++ '.' :: (label ++ rest) ∧ label ≠ [] ∧
      ∀ c ∈ label, ∃ digit < 10, hexDigit c = some digit := by
  unfold readV4 at read
  simp only [Option.bind_eq_bind,Option.bind_eq_some_iff] at read
  obtain ⟨⟨a,s₁⟩,first,s₂,dot₁,⟨b,s₃⟩,second,s₄,dot₂,⟨c,s₅⟩,third,s₆,dot₃,⟨d,s₇⟩,fourth,done⟩ := read
  obtain ⟨_,left⟩ := Prod.mk.inj (Option.some.inj done)
  obtain ⟨one,cut₁,_,_⟩ := readOctet_taken first
  obtain ⟨two,cut₂,_,_⟩ := readOctet_taken second
  obtain ⟨three,cut₃,_,_⟩ := readOctet_taken third
  obtain ⟨label,cut₄,filled,each⟩ := readOctet_taken fourth
  refine ⟨one ++ '.' :: (two ++ '.' :: three),label,?_,filled,each⟩
  have after₁ : s₁ = '.' :: s₂ := readChar_taken dot₁
  have after₂ : s₃ = '.' :: s₄ := readChar_taken dot₂
  have after₃ : s₅ = '.' :: s₆ := readChar_taken dot₃
  have ends : s₇ = rest := left
  rw [cut₁,after₁,cut₂,after₂,cut₃,after₃,cut₄,ends]
  simp only [List.append_assoc,List.cons_append]

theorem readV4_undotted (absent : '.' ∉ s) : readV4 s = none := by
  cases read : readV4 s with
  | none => rfl
  | some result =>
    obtain ⟨front,label,cut,_,_⟩ := readV4_taken read
    rw [cut] at absent
    exact absurd (List.mem_append_right _ List.mem_cons_self) absent

theorem readGroups_unseparated (limit : Nat) (absent : readChar ':' s = none) :
    readGroups limit true s = ([],false,s) := by
  cases limit with
  | zero => rfl
  | succ limit =>
    unfold readGroups
    rw [if_pos rfl,absent]

theorem readV6_uncoloned (absent : ':' ∉ s) : readV6 s = none := by
  unfold readV6 readGroups
  simp only [Bool.false_eq_true,if_false]
  cases four : (if 0 < 7 then readV4 s else none) with
  | some result =>
    obtain ⟨⟨a,b,c,d⟩,rest⟩ := result
    rfl
  | none =>
    cases one : readGroup s with
    | none => simp [readChar_absent absent]
    | some result =>
      obtain ⟨group,rest⟩ := result
      obtain ⟨taken,cut⟩ := readGroup_taken one
      have apart : ':' ∉ rest := fun inside => absent (cut ▸ List.mem_append_right _ inside)
      simp [readGroups_unseparated 7 (readChar_absent apart),readChar_absent apart]

end reading

section literals

theorem printGroups_all {p : Char → Prop} (digits : ∀ digit < 16, p (hexChar digit)) (colon : p ':') :
    ∀ c ∈ printGroups seen groups, p c := by
  induction groups generalizing seen with
  | nil =>
    intro c inside
    cases inside
  | cons group rest ih =>
    unfold printGroups
    intro c inside
    rcases List.mem_append.mp inside with separator | inside
    · cases seen
      · cases separator
      · exact List.mem_singleton.mp separator ▸ colon
    · rcases List.mem_append.mp inside with number | later
      · exact printNumber_all digits (by decide) (by decide) c number
      · exact ih c later

theorem LiteralV6.all {p : Char → Prop} (literal : LiteralV6 segments text)
    (digits : ∀ digit < 16, p (hexChar digit)) (colon : p ':') : ∀ c ∈ text, p c := by
  intro c inside
  cases literal with
  | full eight => exact printGroups_all digits colon c inside
  | short head tail room =>
    rcases List.mem_append.mp inside with before | inside
    · exact printGroups_all digits colon c before
    · rcases List.mem_cons.mp inside with rfl | inside
      · exact colon
      · rcases List.mem_cons.mp inside with rfl | after
        · exact colon
        · exact printGroups_all digits colon c after

theorem printV4_all {p : Char → Prop} (digits : ∀ digit < 16, p (hexChar digit)) (dot : p '.') :
    ∀ ch ∈ printV4 a b c d, p ch := by
  have number : ∀ n, ∀ ch ∈ printNumber 10 n, p ch := fun n => printNumber_all digits (by decide) (by decide)
  intro ch inside
  simp only [printV4,List.mem_append,List.mem_cons] at inside
  rcases inside with one | rfl | two | rfl | three | rfl | four
  · exact number a ch one
  · exact dot
  · exact number b ch two
  · exact dot
  · exact number c ch three
  · exact dot
  · exact number d ch four

theorem printGroups_undotted (seen : Bool) (groups : List Nat) : '.' ∉ printGroups seen groups := by
  intro inside
  exact printGroups_all (p := (· ≠ '.')) (hexChar_sign (by decide)) (by decide) '.' inside rfl

theorem readGroup_sign (sign : hexDigit c = none) : readGroup (c :: rest) = none := by
  simp [readGroup,readDigits,sign]

def Breaks (rest : List Char) : Prop := rest = [] ∨ ∃ tail, rest = ':' :: ':' :: tail

theorem printGroups_stops (breaks : Breaks rest) : Stops (printGroups true groups ++ rest) := by
  have colon : hexDigit ':' = none := by decide
  cases groups with
  | cons group later => exact stops_cons colon
  | nil =>
    rcases breaks with rfl | ⟨tail,rfl⟩
    · exact stops_nil
    · exact stops_cons colon

-- Induction over the groups; each leaves a text at which the next digits stop.
theorem readGroups_printed (limit : Nat) (seen : Bool) (groups : List Nat) (fits : groups.length ≤ limit)
    (each : ∀ group ∈ groups, group < 65536) (undotted : '.' ∉ rest) (breaks : Breaks rest) :
    readGroups limit seen (printGroups seen groups ++ rest) = (groups,false,rest) := by
  have dot : hexDigit '.' = none := by decide
  induction groups generalizing limit seen with
  | nil =>
    cases limit with
    | zero => rfl
    | succ limit =>
      rcases breaks with rfl | ⟨tail,rfl⟩
      · cases seen <;> simp [readGroups,printGroups,readChar,readV4_undotted,readGroup,readDigits]
      · have undotted' : '.' ∉ ':' :: tail := fun inside => undotted (List.mem_cons_of_mem _ inside)
        have colon : hexDigit ':' = none := by decide
        cases seen <;> simp [readGroups,printGroups,readChar,readV4_undotted,undotted,undotted',readGroup_sign colon]
  | cons group groups ih =>
    cases limit with
    | zero => cases fits
    | succ limit =>
      have body : (if seen then readChar ':' (printGroups seen (group :: groups) ++ rest)
          else some (printGroups seen (group :: groups) ++ rest)) =
          some (printNumber 16 group ++ (printGroups true groups ++ rest)) := by
        cases seen <;> simp [printGroups,readChar]
      have plain : '.' ∉ printNumber 16 group ++ (printGroups true groups ++ rest) := by
        intro inside
        rcases List.mem_append.mp inside with digits | inside
        · exact printNumber_all (p := (· ≠ '.')) (hexChar_sign dot) (by decide) (by decide) '.' digits rfl
        · rcases List.mem_append.mp inside with later | after
          · exact printGroups_undotted _ _ later
          · exact undotted after
      have first : readGroup (printNumber 16 group ++ (printGroups true groups ++ rest)) =
          some (group,printGroups true groups ++ rest) :=
        readGroup_printed (each group List.mem_cons_self) (printGroups_stops breaks)
      have later := ih limit true (Nat.le_of_succ_le_succ fits)
        (fun g inside => each g (List.mem_cons_of_mem _ inside))
      unfold readGroups
      rw [body]
      dsimp only
      rw [readV4_undotted plain,ite_self]
      dsimp only
      rw [first]
      dsimp only
      rw [later]

theorem readV6_literal (literal : LiteralV6 segments text) (each : ∀ segment ∈ segments, segment < 65536) :
    readV6 text = some (segments,[]) := by
  cases literal with
  | full eight =>
    have read := readGroups_printed 8 false segments (Nat.le_of_eq eight) each List.not_mem_nil (.inl rfl)
    rw [List.append_nil] at read
    unfold readV6
    rw [read]
    exact if_pos eight
  | short head tail room =>
    have plain : '.' ∉ ':' :: ':' :: printGroups false tail := by
      simpa using printGroups_undotted false tail
    have before := readGroups_printed 8 false head (by omega)
      (fun g inside => each g (by simp [inside])) plain (.inr ⟨_,rfl⟩)
    have after := readGroups_printed (8 - (head.length+1)) false tail (by omega)
      (fun g inside => each g (by simp [inside])) List.not_mem_nil (.inl rfl)
    rw [List.append_nil] at after
    unfold readV6
    rw [before]
    dsimp only
    rw [if_neg (by omega)]
    simp only [Bool.false_eq_true,if_false,readChar,if_true,Option.bind_eq_bind,Option.bind_some,after]
    rfl

theorem parse_literal (literal : LiteralV6 segments text) (each : ∀ segment ∈ segments, segment < 65536) :
    parse text = some (.v6 segments) := by
  have plain : '.' ∉ text := by
    intro inside
    exact literal.all (p := (· ≠ '.')) (hexChar_sign (by decide)) (by decide) '.' inside rfl
  unfold parse
  rw [readV4_undotted plain,readV6_literal literal each]

theorem parse_dotted (ha : a < 256) (hb : b < 256) (hc : c < 256) (hd : d < 256) :
    parse (printV4 a b c d) = some (.v4 a b c d) := by
  unfold parse
  rw [readV4_printed ha hb hc hd]

def EndsInNumber (name : List Char) : Prop :=
  ∃ front label, name = front ++ '.' :: label ∧ label ≠ [] ∧ ∀ c ∈ label, c.isDigit

theorem digit_decimal (read : hexDigit c = some digit) (small : digit < 10) : c.isDigit := by
  unfold hexDigit at read
  split at read
  · rename_i decimal
    unfold Char.isDigit
    rw [Bool.and_eq_true]
    exact ⟨decide_eq_true decimal.1,decide_eq_true decimal.2⟩
  · split at read
    · have value := Option.some.inj read
      omega
    · split at read
      · have value := Option.some.inj read
        omega
      · cases read

theorem parse_name (uncoloned : ':' ∉ name) (named : ¬EndsInNumber name) : parse name = none := by
  unfold parse
  rw [readV6_uncoloned uncoloned]
  cases read : readV4 name with
  | none => rfl
  | some result =>
    obtain ⟨⟨a,b,c,d⟩,rest⟩ := result
    cases rest with
    | cons _ _ => rfl
    | nil =>
      obtain ⟨front,label,cut,filled,each⟩ := readV4_taken read
      rw [List.append_nil] at cut
      refine absurd ⟨front,label,cut,filled,?_⟩ named
      intro d inside
      obtain ⟨digit,small,value⟩ := each d inside
      exact digit_decimal value small

end literals

section ranges

def InRange : IpAddr → Prop
  | .v4 a b c d => a < 256 ∧ b < 256 ∧ c < 256 ∧ d < 256
  | .v6 segments => segments.length = 8 ∧ ∀ segment ∈ segments, segment < 65536

theorem readDigits_bound (base maxDigits value count : Nat) (s : List Char) (small : value < base^count) :
    (readDigits base maxDigits value count s).1 < base^(readDigits base maxDigits value count s).2.1 := by
  induction s generalizing value count with
  | nil => exact small
  | cons c rest ih =>
    unfold readDigits
    cases hexDigit c with
    | none => exact small
    | some digit =>
      dsimp only
      split
      · rename_i fits
        apply ih
        rw [Nat.pow_succ]
        calc value*base+digit < value*base+base := by omega
          _ = (value+1)*base := by rw [Nat.add_mul,Nat.one_mul]
          _ ≤ base^count*base := Nat.mul_le_mul_right base small
      · exact small

theorem readOctet_range (read : readOctet s = some (value,rest)) : value < 256 := by
  unfold readOctet at read
  dsimp only at read
  split at read
  · cases read
  · obtain ⟨same,_⟩ := Prod.mk.inj (Option.some.inj read)
    omega

theorem readGroup_range (read : readGroup s = some (value,rest)) : value < 65536 := by
  have bound := readDigits_bound 16 5 0 0 s (by decide)
  unfold readGroup at read
  dsimp only at read
  split at read
  · cases read
  · rename_i good
    obtain ⟨same,_⟩ := Prod.mk.inj (Option.some.inj read)
    have few : (readDigits 16 5 0 0 s).2.1 ≤ 4 := Nat.le_of_not_lt (not_or.mp good).2
    rw [← same]
    calc (readDigits 16 5 0 0 s).1 < 16^(readDigits 16 5 0 0 s).2.1 := bound
      _ ≤ 16^4 := Nat.pow_le_pow_right (by decide) few

theorem readV4_range (read : readV4 s = some ((a,b,c,d),rest)) : InRange (.v4 a b c d) := by
  unfold readV4 at read
  simp only [Option.bind_eq_bind,Option.bind_eq_some_iff] at read
  obtain ⟨⟨a,s₁⟩,first,s₂,_,⟨b,s₃⟩,second,s₄,_,⟨c,s₅⟩,third,s₆,_,⟨d,s₇⟩,fourth,done⟩ := read
  cases done
  exact ⟨readOctet_range first,readOctet_range second,readOctet_range third,readOctet_range fourth⟩

theorem readGroups_range (limit : Nat) (seen : Bool) (s : List Char) :
    (readGroups limit seen s).1.length ≤ limit ∧ ∀ group ∈ (readGroups limit seen s).1, group < 65536 := by
  induction limit generalizing seen s with
  | zero => exact ⟨Nat.le_refl _,by simp [readGroups]⟩
  | succ limit ih =>
    unfold readGroups
    split
    · simp
    · rename_i body _
      split
      · rename_i a b c d rest four
        split at four
        · obtain ⟨ha,hb,hc,hd⟩ := readV4_range four
          refine ⟨by simp; omega,?_⟩
          intro group inside
          simp only [List.mem_cons,List.not_mem_nil,or_false] at inside
          omega
        · cases four
      · split
        · simp
        · rename_i group rest one
          obtain ⟨short,small⟩ := ih true rest
          refine ⟨Nat.succ_le_succ short,?_⟩
          intro g inside
          rcases List.mem_cons.mp inside with rfl | later
          · exact readGroup_range one
          · exact small g later

theorem readV6_range (read : readV6 s = some (segments,rest)) : InRange (.v6 segments) := by
  obtain ⟨short,small⟩ := readGroups_range 8 false s
  unfold readV6 at read
  dsimp only at read
  split at read
  · rename_i eight
    cases read
    exact ⟨eight,small⟩
  · rename_i fewer
    split at read
    · cases read
    · simp only [Option.bind_eq_bind,Option.bind_eq_some_iff] at read
      obtain ⟨s₁,_,s₂,_,done⟩ := read
      obtain ⟨short',small'⟩ := readGroups_range (8 - ((readGroups 8 false s).1.length+1)) false s₂
      cases done
      refine ⟨?_,?_⟩
      · simp only [List.length_append,List.length_replicate]
        omega
      · intro segment inside
        rcases List.mem_append.mp inside with inside | after
        · rcases List.mem_append.mp inside with before | zero
          · exact small segment before
          · rw [List.eq_of_mem_replicate zero]
            decide
        · exact small' segment after

theorem parse_range (parsed : parse s = some ip) : ip.InRange := by
  unfold parse at parsed
  split at parsed
  · rename_i a b c d four
    cases parsed
    exact readV4_range four
  · split at parsed
    · rename_i segments six
      cases parsed
      exact readV6_range six
    · cases parsed

end ranges

end AetherRelay.IpAddr
