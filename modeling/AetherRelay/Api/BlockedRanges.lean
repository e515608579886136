import AetherRelay.Lib.Prefix
import AetherRelay.Api.HostGate

namespace AetherRelay
open Prefix

namespace IpAddr

def ofBitsV4 (address : BitVec 32) : IpAddr :=
  .v4 (word 8 address 0).toNat (word 8 address 1).toNat (word 8 address 2).toNat (word 8 address 3).toNat

def segments (address : BitVec 128) : List Nat := (words 16 8 address).map BitVec.toNat

def ofBitsV6 (address : BitVec 128) : IpAddr := .v6 (segments address)

end IpAddr

def dotted (a b c d : BitVec 8) : BitVec 32 := a ++ b ++ c ++ d

def blockedNetworksV4 : List (Block 32) :=
  [⟨dotted 127 0 0 0,8,by decide⟩,⟨dotted 10 0 0 0,8,by decide⟩,⟨dotted 172 16 0 0,12,by decide⟩,
   ⟨dotted 192 168 0 0,16,by decide⟩,⟨dotted 169 254 0 0,16,by decide⟩,⟨dotted 100 64 0 0,10,by decide⟩,
   ⟨dotted 192 0 2 0,24,by decide⟩,⟨dotted 198 51 100 0,24,by decide⟩,⟨dotted 203 0 113 0,24,by decide⟩]

def BlockedV4 (address : BitVec 32) : Prop :=
  (∃ block ∈ blockedNetworksV4, block.Contains address) ∨ address = dotted 0 0 0 0 ∨ address = dotted 255 255 255 255

instance (address : BitVec 32) : Decidable (BlockedV4 address) := inferInstanceAs (Decidable (_ ∨ _))

def blockedNetworksV6 : List (Block 128) :=
  [⟨0xfc00#16 ++ 0#112,7,by decide⟩,⟨0xfe80#16 ++ 0#112,10,by decide⟩]

def mapped (address : BitVec 32) : BitVec 128 := 0xffff#96 ++ address

def BlockedV6 (address : BitVec 128) : Prop :=
  address = 0#128 ∨ address = 1#128 ∨ (∃ block ∈ blockedNetworksV6, block.Contains address) ∨
    ∃ inner, address = mapped inner ∧ BlockedV4 inner

section octets
variable {address : BitVec 32} {a b c d : BitVec 8}

theorem dotted_toNat (a b c d : BitVec 8) :
    (dotted a b c d).toNat = a.toNat*2^24+b.toNat*2^16+c.toNat*2^8+d.toNat := by
  unfold dotted
  rw [append_toNat,append_toNat,append_toNat]
  omega

theorem dotted_octets (a b c d : BitVec 8) :
    word 8 (dotted a b c d) 0 = a ∧ word 8 (dotted a b c d) 1 = b ∧ word 8 (dotted a b c d) 2 = c ∧
      word 8 (dotted a b c d) 3 = d := by
  refine ⟨?_,?_,?_,?_⟩
  all_goals
    apply BitVec.eq_of_toNat_eq
    rw [word_toNat,dotted_toNat]
    omega

theorem agree_octets (i : Nat) (few : i ≤ 4) :
    Agree (8*i) address (dotted a b c d) ↔
      ((words 8 4 address).map BitVec.toNat).take i = ([a,b,c,d].map BitVec.toNat).take i := by
  obtain ⟨first,second,third,fourth⟩ := dotted_octets a b c d
  have own : words 8 4 (dotted a b c d) = [a,b,c,d] := by
    show [_,_,_,_] = _
    rw [first,second,third,fourth]
  rw [agree_words (by omega),← words_toNat,← words_take few,← words_take few,own,List.map_take,List.map_take]

theorem agree_one : Agree 8 address (dotted a b c d) ↔ (word 8 address 0).toNat = a.toNat := by
  simpa [words,List.range_succ] using agree_octets 1 (by decide)

theorem agree_two : Agree 16 address (dotted a b c d) ↔
    (word 8 address 0).toNat = a.toNat ∧ (word 8 address 1).toNat = b.toNat := by
  simpa [words,List.range_succ] using agree_octets 2 (by decide)

theorem agree_three : Agree 24 address (dotted a b c d) ↔
    (word 8 address 0).toNat = a.toNat ∧ (word 8 address 1).toNat = b.toNat ∧ (word 8 address 2).toNat = c.toNat := by
  simpa [words,List.range_succ] using agree_octets 3 (by decide)

theorem eq_dotted : address = dotted a b c d ↔ (word 8 address 0).toNat = a.toNat ∧
    (word 8 address 1).toNat = b.toNat ∧ (word 8 address 2).toNat = c.toNat ∧ (word 8 address 3).toNat = d.toNat := by
  simpa [words,List.range_succ,agree_full] using agree_octets 4 (by decide)

theorem agree_range_second (short : n ≤ 8) (clear : b.toNat % 2^(8-n) = 0) :
    Agree (8+n) address (dotted a b c d) ↔
      (word 8 address 0).toNat = a.toNat ∧ b.toNat ≤ (word 8 address 1).toNat ∧
        (word 8 address 1).toNat < b.toNat + 2^(8-n) := by
  obtain ⟨_,second,_⟩ := dotted_octets a b c d
  have first : words 8 1 address = words 8 1 (dotted a b c d) ↔ (word 8 address 0).toNat = a.toNat :=
    (agree_words (k:=8) (i:=1) (by decide)).symm.trans agree_one
  apply (agree_within (k:=8) (i:=1) (by decide) short).trans
  rw [first,second,agree_range short clear]

theorem isBlockedV4_cidr (address : BitVec 32) : isBlockedIp (.ofBitsV4 address) = true ↔ BlockedV4 address := by
  have upper : Agree 12 address (dotted 172 16 0 0) ↔
      (word 8 address 0).toNat = 172 ∧ 16 ≤ (word 8 address 1).toNat ∧ (word 8 address 1).toNat < 32 :=
    agree_range_second (n:=4) (by decide) (by decide)
  have shared : Agree 10 address (dotted 100 64 0 0) ↔
      (word 8 address 0).toNat = 100 ∧ 64 ≤ (word 8 address 1).toNat ∧ (word 8 address 1).toNat < 128 :=
    agree_range_second (n:=2) (by decide) (by decide)
  simp only [BlockedV4,blockedNetworksV4,List.mem_cons,List.not_mem_nil,or_false,exists_eq_or_imp,exists_eq_left,
    Block.Contains,agree_one,agree_two,agree_three,eq_dotted,upper,shared,BitVec.reduceToNat]
  simp only [isBlockedIp,IpAddr.ofBitsV4,isBlockedV4,Bool.or_eq_true,Bool.and_eq_true,decide_eq_true_eq,or_assoc,and_assoc]
  clear upper shared
  generalize (word 8 address 0).toNat = o₀
  generalize (word 8 address 1).toNat = o₁
  generalize (word 8 address 2).toNat = o₂
  generalize (word 8 address 3).toNat = o₃
  constructor
  · rintro (loopback | ten | upper | home | link | broadcast | unspecified | first | second | third | shared)
    all_goals simp [*]
    all_goals omega
  · rintro (loopback | ten | upper | home | link | shared | first | second | third | unspecified | broadcast)
    all_goals simp [*]
    all_goals omega

end octets

section segments
variable {address : BitVec 128}

theorem segments_inj {a b : BitVec 128} : IpAddr.segments a = IpAddr.segments b ↔ a = b := by
  unfold IpAddr.segments
  rw [words_toNat]
  exact (words_full (k:=16) (i:=8) rfl).symm

theorem agree_segment (short : n ≤ 16) (first : BitVec 16) :
    Agree n address (first ++ 0#112) ↔
      ((word 16 address 0).toNat &&& (BitVec.allOnes 16 <<< (16-n)).toNat) =
        (first &&& BitVec.allOnes 16 <<< (16-n)).toNat := by
  have leading : word 16 (first ++ 0#112) 0 = first := by
    apply BitVec.eq_of_toNat_eq
    rw [word_toNat,append_toNat]
    have small := first.isLt
    simp only [BitVec.toNat_ofNat]
    omega
  have within := agree_within (k:=16) (i:=0) (a:=address) (b:=first ++ 0#112) (by decide) short
  rw [Nat.mul_zero,Nat.zero_add,leading,agree_mask short] at within
  rw [within,← BitVec.toNat_and,BitVec.toNat_inj]
  exact and_iff_right rfl

theorem mapped_toNat (inner : BitVec 32) : (mapped inner).toNat = 0xffff*2^32+inner.toNat := by
  unfold mapped
  rw [append_toNat]
  rfl

theorem toIpv4Mapped_mapped (inner : BitVec 32) :
    toIpv4Mapped (IpAddr.segments (mapped inner)) = some ((word 8 inner 0).toNat,(word 8 inner 1).toNat,
      (word 8 inner 2).toNat,(word 8 inner 3).toNat) := by
  have small := inner.isLt
  have parts : IpAddr.segments (mapped inner) = [0,0,0,0,0,0xffff,inner.toNat / 65536,inner.toNat % 65536] := by
    show [_,_,_,_,_,_,_,_] = _
    simp only [word_toNat,mapped_toNat,List.cons.injEq,and_true]
    refine ⟨?_,?_,?_,?_,?_,?_,?_,?_⟩
    all_goals omega
  have octet : ∀ i, (word 8 inner i).toNat = inner.toNat / 2^(32 - 8*(i+1)) % 2^8 := fun i => word_toNat
  have first : inner.toNat / 65536 / 256 = (word 8 inner 0).toNat := by have value := octet 0; omega
  have second : inner.toNat / 65536 % 256 = (word 8 inner 1).toNat := by have value := octet 1; omega
  have third : inner.toNat % 65536 / 256 = (word 8 inner 2).toNat := by have value := octet 2; omega
  have fourth : inner.toNat % 65536 % 256 = (word 8 inner 3).toNat := by have value := octet 3; omega
  rw [parts,toIpv4Mapped,first,second,third,fourth]

theorem toIpv4Mapped_some (found : toIpv4Mapped (IpAddr.segments address) = some octets) :
    ∃ inner, address = mapped inner := by
  have size := address.isLt
  unfold toIpv4Mapped at found
  split at found
  · rename_i ab cd parts
    have parts : [_,_,_,_,_,_,_,_] = [0,0,0,0,0,0xffff,ab,cd] := parts
    simp only [word_toNat,List.cons.injEq] at parts
    refine ⟨BitVec.ofNat 32 address.toNat,BitVec.eq_of_toNat_eq ?_⟩
    rw [mapped_toNat,BitVec.toNat_ofNat]
    omega
  · cases found

theorem mapped_cidr (address : BitVec 128) :
    (toIpv4Mapped (IpAddr.segments address)).any (fun (a,b,c,d) => isBlockedV4 a b c d) = true ↔
      ∃ inner, address = mapped inner ∧ BlockedV4 inner := by
  constructor
  · intro blocked
    obtain ⟨octets,found,_⟩ := (Option.any_eq_true _ _).mp blocked
    obtain ⟨inner,rfl⟩ := toIpv4Mapped_some found
    refine ⟨inner,rfl,(isBlockedV4_cidr inner).mp ?_⟩
    rwa [toIpv4Mapped_mapped] at blocked
  · rintro ⟨inner,rfl,blocked⟩
    rw [toIpv4Mapped_mapped]
    exact (isBlockedV4_cidr inner).mpr blocked

theorem isBlockedV6_cidr (address : BitVec 128) : isBlockedIp (.ofBitsV6 address) = true ↔ BlockedV6 address := by
  have loopback : IpAddr.segments address = [0,0,0,0,0,0,0,1] ↔ address = 1#128 := segments_inj (b:=1#128)
  have unspecified : IpAddr.segments address = [0,0,0,0,0,0,0,0] ↔ address = 0#128 := segments_inj (b:=0#128)
  have uniqueLocal : ((IpAddr.segments address).headD 0 &&& 0xfe00) = 0xfc00 ↔ Agree 7 address (0xfc00#16 ++ 0#112) :=
    (agree_segment (n:=7) (by decide) 0xfc00).symm
  have linkLocal : ((IpAddr.segments address).headD 0 &&& 0xffc0) = 0xfe80 ↔ Agree 10 address (0xfe80#16 ++ 0#112) :=
    (agree_segment (n:=10) (by decide) 0xfe80).symm
  simp only [isBlockedIp,IpAddr.ofBitsV6,Bool.or_eq_true,decide_eq_true_eq,loopback,unspecified,uniqueLocal,linkLocal,
    mapped_cidr]
  simp only [BlockedV6,blockedNetworksV6,List.mem_cons,List.not_mem_nil,or_false,exists_eq_or_imp,exists_eq_left,
    Block.Contains]
  constructor
  · rintro ((((one | zero) | unique) | link) | inner)
    · exact .inr (.inl one)
    · exact .inl zero
    · exact .inr (.inr (.inl (.inl unique)))
    · exact .inr (.inr (.inl (.inr link)))
    · exact .inr (.inr (.inr inner))
  · rintro (zero | one | (unique | link) | inner)
    · exact .inl (.inl (.inl (.inr zero)))
    · exact .inl (.inl (.inl (.inl one)))
    · exact .inl (.inl (.inr unique))
    · exact .inl (.inr link)
    · exact .inr inner

end segments

theorem blocked_ip_cidr :
    (∀ address : BitVec 32, isBlockedIp (.ofBitsV4 address) = true ↔ BlockedV4 address) ∧
    ∀ address : BitVec 128, isBlockedIp (.ofBitsV6 address) = true ↔ BlockedV6 address :=
  ⟨isBlockedV4_cidr,isBlockedV6_cidr⟩

instance (address : BitVec 128) : Decidable (BlockedV6 address) := decidable_of_iff _ (isBlockedV6_cidr address)

-- ::ffff:169.254.169.254, and the first address behind fe80::/10
example : BlockedV6 (mapped (dotted 169 254 169 254)) ∧ ¬BlockedV6 (0xfec0#16 ++ 0#112) := by decide

section literals

def IpAddr.InNetworks (ip : IpAddr) : Prop :=
  (∃ address, ip = .ofBitsV4 address ∧ BlockedV4 address) ∨ ∃ address, ip = .ofBitsV6 address ∧ BlockedV6 address

theorem ofBitsV4_dotted (ha : a < 256) (hb : b < 256) (hc : c < 256) (hd : d < 256) :
    IpAddr.ofBitsV4 (dotted (.ofNat 8 a) (.ofNat 8 b) (.ofNat 8 c) (.ofNat 8 d)) = .v4 a b c d := by
  obtain ⟨first,second,third,fourth⟩ := dotted_octets (.ofNat 8 a) (.ofNat 8 b) (.ofNat 8 c) (.ofNat 8 d)
  unfold IpAddr.ofBitsV4
  rw [first,second,third,fourth]
  simp only [BitVec.toNat_ofNat,Nat.mod_eq_of_lt ha,Nat.mod_eq_of_lt hb,Nat.mod_eq_of_lt hc,Nat.mod_eq_of_lt hd]

theorem segments_onto (eight : segments.length = 8) (each : ∀ segment ∈ segments, segment < 65536) :
    ∃ address, IpAddr.segments address = segments := by
  obtain ⟨address,same⟩ := words_onto (segments.map (BitVec.ofNat 16)) (by rw [List.length_map,eight])
  refine ⟨address,?_⟩
  unfold IpAddr.segments
  have back : ∀ segment ∈ segments, (BitVec.toNat ∘ BitVec.ofNat 16) segment = id segment := by
    intro segment inside
    exact (BitVec.toNat_ofNat ..).trans (Nat.mod_eq_of_lt (each segment inside))
  rw [same,List.map_map,List.map_congr_left back,List.map_id]

theorem bits_of_range (range : IpAddr.InRange ip) :
    (∃ address, ip = .ofBitsV4 address) ∨ ∃ address, ip = .ofBitsV6 address := by
  cases ip with
  | v4 a b c d =>
    obtain ⟨ha,hb,hc,hd⟩ := range
    exact .inl ⟨_,(ofBitsV4_dotted ha hb hc hd).symm⟩
  | v6 segments =>
    obtain ⟨address,same⟩ := segments_onto range.1 range.2
    exact .inr ⟨address,congrArg IpAddr.v6 same.symm⟩

theorem isBlockedIp_networks (range : IpAddr.InRange ip) : isBlockedIp ip = true ↔ ip.InNetworks := by
  constructor
  · intro blocked
    rcases bits_of_range range with ⟨address,rfl⟩ | ⟨address,rfl⟩
    · exact .inl ⟨address,rfl,(isBlockedV4_cidr address).mp blocked⟩
    · exact .inr ⟨address,rfl,(isBlockedV6_cidr address).mp blocked⟩
  · rintro (⟨address,rfl,blocked⟩ | ⟨address,rfl,blocked⟩)
    · exact (isBlockedV4_cidr address).mpr blocked
    · exact (isBlockedV6_cidr address).mpr blocked

-- What the host check makes of any text: the parser builds nothing that is not an
-- address, so the networks decide about every literal it reads.
theorem isBlockedHost_networks (text : String) :
    isBlockedHost text = true ↔
      (unbracket text.toList).map Char.toLower = "localhost".toList ∨ ".localhost".toList <:+ unbracket text.toList ∨
        ∃ ip, IpAddr.parse (unbracket text.toList) = some ip ∧ ip.InNetworks := by
  rw [isBlockedHost_iff]
  refine or_congr_right (or_congr_right (exists_congr fun ip => and_congr_right fun parsed => ?_))
  exact isBlockedIp_networks (IpAddr.parse_range parsed)

end literals

end AetherRelay
