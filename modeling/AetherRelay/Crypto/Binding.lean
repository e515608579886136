import AetherRelay.Crypto.StripeGrammar

namespace AetherRelay

def offered (headers : HeaderMap) : Provider → List Bytes
  | .gitHub => ((headerText headers "x-hub-signature-256").bind fun sig =>
      ("sha256=".toList.isPrefixOf? sig.toList).bind hexDecode).toList
  | .stripe => ((headerText headers "stripe-signature").map Stripe.digests).getD []
  | .midtrans => []
  | .discord => ((headerText headers "x-signature-ed25519").bind fun sig => hexDecode sig.toList).toList
  | .generic => ((((headers.get "x-signature").or (headers.get "signature")).bind toStr).bind fun sig =>
      hexDecode (trim sig.toList)).toList

def signedText (headers : HeaderMap) (body : Bytes) : Provider → Option Bytes
  | .gitHub | .generic => some body
  | .stripe => (headerText headers "stripe-signature").bind fun header =>
      (Stripe.timestamps header).getLast?.map fun ts => Stripe.payload ts body
  | .midtrans => none
  | .discord => (headerText headers "x-signature-timestamp").map fun ts => asBytes ts ++ body

structure Signed where
  headers : HeaderMap
  body : Bytes
  now : Nat

section
variable (x : Externals)

def Authenticates (secret : String) (text sig : Bytes) : Provider → Prop
  | .discord => ∃ pk, hexDecode secret.toList = some pk ∧ x.ed25519Verify pk text sig = true
  | _ => x.hmacSha256 (asBytes secret) text = sig

def SucceedsBy (provider : Provider) (secret : String) (sig : Bytes) (r : Signed) : Prop :=
  verifySignature x provider secret r.body r.headers r.now = .ok () ∧ sig ∈ offered r.headers provider ∧
    ∃ text, signedText r.headers r.body provider = some text ∧ Authenticates x secret text sig provider

theorem hmacVerify_ok : hmacVerify x secret payload expected = .ok () ↔
    x.hmacSha256 secret payload = expected := by
  unfold hmacVerify
  split <;> simp [*]

theorem gitHub_ok (accepted : GitHub.verify x secret body header = .ok ()) :
    ∃ sig, ("sha256=".toList.isPrefixOf? header.toList).bind hexDecode = some sig ∧
      x.hmacSha256 secret body = sig := by
  unfold GitHub.verify at accepted
  cases hex : "sha256=".toList.isPrefixOf? header.toList with
  | none =>
    rw [hex] at accepted
    cases accepted
  | some sigHex =>
    rw [hex] at accepted
    cases decoded : hexDecode sigHex with
    | none => simp [decoded] at accepted
    | some sig =>
      simp only [decoded] at accepted
      exact ⟨sig,decoded,(hmacVerify_ok x).mp accepted⟩

theorem generic_ok (accepted : Generic.verify x secret body header = .ok ()) :
    ∃ sig, hexDecode (trim header.toList) = some sig ∧ x.hmacSha256 secret body = sig := by
  unfold Generic.verify at accepted
  cases decoded : hexDecode (trim header.toList) with
  | none => simp [decoded] at accepted
  | some sig =>
    simp only [decoded] at accepted
    exact ⟨sig,rfl,(hmacVerify_ok x).mp accepted⟩

theorem discord_ok (accepted : Discord.verify x publicKeyHex body signatureHex timestamp = .ok ()) :
    ∃ pk sig, hexDecode publicKeyHex.toList = some pk ∧ hexDecode signatureHex.toList = some sig ∧
      x.ed25519Verify pk (asBytes timestamp ++ body) sig = true := by
  unfold Discord.verify at accepted
  split at accepted
  · rename_i pk sig key value
    split at accepted
    · rename_i checks
      exact ⟨pk,sig,key,value,checks.2.2.2⟩
    · cases accepted
  · cases accepted

-- Some signature is always behind a success, Midtrans apart: it signs inside the body.
theorem succeeds_by (covered : provider ≠ .midtrans)
    (accepted : verifySignature x provider secret r.body r.headers r.now = .ok ()) :
    ∃ sig, SucceedsBy x provider secret sig r := by
  have kept := accepted
  unfold verifySignature at accepted
  cases provider with
  | midtrans => exact absurd rfl covered
  | gitHub =>
    cases read : headerText r.headers "x-hub-signature-256" with
    | none => simp [read] at accepted
    | some header =>
      simp only [read] at accepted
      obtain ⟨sig,value,tag⟩ := gitHub_ok x accepted
      have among : sig ∈ offered r.headers .gitHub := by
        rw [offered,read,Option.bind_some,value]
        exact List.mem_singleton_self sig
      exact ⟨sig,kept,among,r.body,rfl,tag⟩
  | stripe =>
    cases read : headerText r.headers "stripe-signature" with
    | none => simp [read] at accepted
    | some header =>
      simp only [read] at accepted
      obtain ⟨ts,last,_,inside⟩ := (Stripe.verify_accepts x).mp accepted
      exact ⟨_,kept,by simpa [offered,read] using inside,Stripe.payload ts r.body,
        by simp [signedText,read,last],rfl⟩
  | discord =>
    cases read : headerText r.headers "x-signature-ed25519" with
    | none => simp [read] at accepted
    | some header =>
      cases time : headerText r.headers "x-signature-timestamp" with
      | none => simp [read,time] at accepted
      | some ts =>
        simp only [read,time] at accepted
        obtain ⟨pk,sig,key,value,checked⟩ := discord_ok x accepted
        exact ⟨sig,kept,by simp [offered,read,value],asBytes ts ++ r.body,by simp [signedText,time],pk,key,checked⟩
  | generic =>
    cases read : ((r.headers.get "x-signature").or (r.headers.get "signature")).bind toStr with
    | none => simp [read] at accepted
    | some header =>
      simp only [read] at accepted
      obtain ⟨sig,value,tag⟩ := generic_ok x accepted
      exact ⟨sig,kept,by simp [offered,read,value],r.body,rfl,tag⟩

end

structure Unforgeable (x : Externals) : Prop where
  hmac : ∀ key, Function.Injective (x.hmacSha256 key)
  ed25519 : ∀ pk sig m₁ m₂, x.ed25519Verify pk m₁ sig = true → x.ed25519Verify pk m₂ sig = true → m₁ = m₂

theorem authenticates_one (primitives : Unforgeable x) (first : Authenticates x secret text₁ sig provider)
    (second : Authenticates x secret text₂ sig provider) : text₁ = text₂ := by
  cases provider with
  | discord =>
    obtain ⟨pk,key,one⟩ := first
    obtain ⟨pk',key',two⟩ := second
    cases key.symm.trans key'
    exact primitives.ed25519 pk sig text₁ text₂ one two
  | gitHub | stripe | midtrans | generic => exact primitives.hmac _ (first.trans second.symm)

theorem signedText_shared (primitives : Unforgeable x) (first : SucceedsBy x provider secret sig r₁)
    (second : SucceedsBy x provider secret sig r₂) :
    ∃ text, signedText r₁.headers r₁.body provider = some text ∧
      signedText r₂.headers r₂.body provider = some text := by
  obtain ⟨_,_,text₁,framed₁,one⟩ := first
  obtain ⟨_,_,text₂,framed₂,two⟩ := second
  obtain rfl := authenticates_one primitives one two
  exact ⟨text₁,framed₁,framed₂⟩

-- The Stripe framing is unambiguous and so is a bare body. Discord signs the
-- timestamp and the body run together, so there the cut is not in the signature.
theorem signature_binds_body (x : Externals) (primitives : Unforgeable x) (provider : Provider)
    (secret : String) (sig : Bytes) (r₁ r₂ : Signed) (first : SucceedsBy x provider secret sig r₁)
    (second : SucceedsBy x provider secret sig r₂) :
    (provider ≠ .discord → r₁.body = r₂.body) ∧
    (provider = .discord → ∃ ts₁ ts₂, headerText r₁.headers "x-signature-timestamp" = some ts₁ ∧
      headerText r₂.headers "x-signature-timestamp" = some ts₂ ∧
      asBytes ts₁ ++ r₁.body = asBytes ts₂ ++ r₂.body ∧
      (r₁.body = r₂.body ↔ (asBytes ts₁).length = (asBytes ts₂).length)) := by
  obtain ⟨text,framed₁,framed₂⟩ := signedText_shared primitives first second
  cases provider with
  | gitHub | generic => exact ⟨fun _ => Option.some.inj (framed₁.trans framed₂.symm),nofun⟩
  | midtrans => cases framed₁
  | stripe =>
    refine ⟨fun _ => ?_,nofun⟩
    simp only [signedText,Option.bind_eq_some_iff,Option.map_eq_some_iff] at framed₁ framed₂
    obtain ⟨_,_,ts₁,_,one⟩ := framed₁
    obtain ⟨_,_,ts₂,_,two⟩ := framed₂
    exact (Stripe.payload_injective (one.trans two.symm)).2
  | discord =>
    refine ⟨fun other => absurd rfl other,fun _ => ?_⟩
    simp only [signedText,Option.map_eq_some_iff] at framed₁ framed₂
    obtain ⟨ts₁,read₁,one⟩ := framed₁
    obtain ⟨ts₂,read₂,two⟩ := framed₂
    have same : asBytes ts₁ ++ r₁.body = asBytes ts₂ ++ r₂.body := one.trans two.symm
    refine ⟨ts₁,ts₂,read₁,read₂,same,?_,?_⟩
    · intro bodies
      rw [bodies] at same
      exact congrArg List.length (List.append_cancel_right same)
    · intro lengths
      exact (List.append_inj same lengths).2

-- One key of each kind and what the primitives answer for it: the HMAC of `{}`
-- under `secret`, and an Ed25519 key with its signature of 170000000010.
namespace Keyring

def pk : Bytes := [215,90,152,1,130,177,10,183,213,75,254,211,201,100,7,58,14,225,114,243,218,166,35,37,175,2,26,104,
  247,7,81,26]

def sig : Bytes := [168,60,162,188,227,64,157,74,3,53,14,142,135,157,245,205,179,72,73,183,156,187,120,38,57,96,231,
  78,86,51,168,98,32,11,137,219,80,55,248,83,196,204,181,78,12,105,1,231,159,232,231,209,197,30,209,217,51,85,251,183,
  242,50,53,10]

def tag : Bytes := [119,50,89,2,202,202,129,45,194,89,115,58,172,208,70,183,56,23,55,44,119,123,141,149,180,2,100,116,
  116,81,110,19]

-- The text 170000000010.
def message : Bytes := [49,55,48,48,48,48,48,48,48,48,49,48]

def keyring : Externals := { Externals.tabletop with
  hmacSha256 := fun key message =>
    if key = [115,101,99,114,101,116] ∧ message = [123,125] then tag else 0 :: message
  ed25519Key := fun key => key = pk
  ed25519Verify := fun key text value =>
    key = pk ∧ text = message ∧ value = sig }

theorem keyring_unforgeable : Unforgeable keyring where
  hmac := by
    intro key m₁ m₂ same
    simp only [keyring,tag] at same
    split at same <;> split at same <;> simp_all
  ed25519 := by
    intro key value m₁ m₂ one two
    simp only [keyring,decide_eq_true_eq] at one two
    exact one.2.1.trans two.2.1.symm

def text (s : String) : Bytes := s.toList.map fun c => UInt8.ofNat c.toNat

def hooked (agent : String) : Signed :=
  ⟨[("user-agent",text agent),("x-hub-signature-256",text ("sha256=" ++ hexEncode tag))],[123,125],0⟩

def stamped (ts : String) (body : Bytes) : Signed :=
  ⟨[("x-signature-ed25519",text (hexEncode sig)),("x-signature-timestamp",text ts)],body,0⟩

theorem visible_of_all {chars : List Char}
    (all : chars.all (fun c => (32 ≤ c.toNat && c.toNat < 127) || c.toNat = 9) = true) :
    ∀ c ∈ chars, VisibleAscii c := by
  intro c inside
  have seen := List.all_eq_true.mp all c inside
  simpa [VisibleAscii] using seen

theorem toStr_text (visible : ∀ c ∈ s.toList, VisibleAscii c) : toStr (text s) = some s := by
  have byte (c : Char) (inside : c ∈ s.toList) : (UInt8.ofNat c.toNat).toNat = c.toNat := by
    have known := visible c inside
    unfold VisibleAscii at known
    rw [UInt8.toNat_ofNat']
    exact Nat.mod_eq_of_lt (by omega)
  have kept : (text s).all isVisibleAscii = true := by
    apply List.all_eq_true.mpr
    intro b present
    obtain ⟨c,inside,rfl⟩ := List.mem_map.mp present
    have known := visible c inside
    unfold VisibleAscii at known
    simpa [isVisibleAscii,UInt8.le_iff_toNat_le,UInt8.lt_iff_toNat_lt,← UInt8.toNat_inj,
      byte c inside] using known
  have back : ((text s).map fun b => Char.ofNat b.toNat) = s.toList := by
    unfold text
    rw [List.map_map]
    have each : ∀ c ∈ s.toList, ((fun b : UInt8 => Char.ofNat b.toNat) ∘ fun c => UInt8.ofNat c.toNat) c = id c := by
      intro c inside
      simp only [Function.comp,byte c inside,Char.ofNat_toNat,id]
    rw [List.map_congr_left each,List.map_id]
  rw [toStr,if_pos kept,back,String.ofList_toList]

theorem headerText_head (visible : ∀ c ∈ s.toList, VisibleAscii c) :
    headerText ((name,text s) :: rest) name = some s := by
  have first : HeaderMap.get ((name,text s) :: rest) name = some (text s) := by simp [HeaderMap.get]
  rw [headerText,first,Option.bind_some,toStr_text visible]

theorem headerText_tail (apart : other ≠ name) :
    headerText ((other,value) :: rest) name = headerText rest name := by
  simp [headerText,HeaderMap.get,apart]

theorem hooked_read (agent : String) :
    headerText (hooked agent).headers "x-hub-signature-256" = some ("sha256=" ++ hexEncode tag) := by
  have visible : ∀ c ∈ ("sha256=" ++ hexEncode tag).toList, VisibleAscii c := by
    intro c inside
    rw [String.toList_append] at inside
    rcases List.mem_append.mp inside with name | hex
    · exact visible_of_all (by decide) c name
    · exact hexEncode_visible tag c hex
  exact (headerText_tail (by decide)).trans (headerText_head visible)

theorem hooked_succeeds (agent : String) : SucceedsBy keyring .gitHub "secret" tag (hooked agent) := by
  have body : "sha256=".toList.isPrefixOf? ("sha256=" ++ hexEncode tag).toList = some (hexEncode tag).toList := by
    rw [String.toList_append]
    rfl
  have answers : keyring.hmacSha256 (asBytes "secret") [123,125] = tag := by
    rw [show asBytes "secret" = _ from asBytes_ofList ['s','e','c','r','e','t']]
    decide
  refine ⟨?_,?_,_,rfl,answers⟩
  · simp only [verifySignature,hooked_read,GitHub.verify,body,hexDecode_hexEncode]
    exact (hmacVerify_ok keyring).mpr answers
  · simp only [offered,hooked_read,Option.bind_some,body,hexDecode_hexEncode]
    exact List.mem_singleton_self tag

theorem stamped_succeeds (visible : ∀ c ∈ ts.toList, VisibleAscii c)
    (signed : asBytes ts ++ body = message) : SucceedsBy keyring .discord (hexEncode pk) sig (stamped ts body) := by
  have value : headerText (stamped ts body).headers "x-signature-ed25519" = some (hexEncode sig) :=
    headerText_head (hexEncode_visible sig)
  have time : headerText (stamped ts body).headers "x-signature-timestamp" = some ts :=
    (headerText_tail (by decide)).trans (headerText_head visible)
  have checked : keyring.ed25519Verify pk message sig = true := by simp [keyring]
  refine ⟨?_,?_,message,?_,pk,hexDecode_hexEncode pk,checked⟩
  · simp only [verifySignature,value,time,Discord.verify,hexDecode_hexEncode]
    have framed : asBytes ts ++ (stamped ts body).body = message := signed
    have known : keyring.ed25519Key pk = true := by simp [keyring]
    have sizes : pk.length = 32 ∧ sig.length = 64 := ⟨rfl,rfl⟩
    rw [framed,checked,known,if_pos ⟨sizes.1,sizes.2,rfl,rfl⟩]
  · simp only [offered,value,Option.bind_some,hexDecode_hexEncode]
    exact List.mem_singleton_self sig
  · rw [signedText,time]
    exact congrArg some signed

theorem ten_digits : SucceedsBy keyring .discord (hexEncode pk) sig (stamped "1700000000" [49,48]) := by
  apply stamped_succeeds
  · exact visible_of_all (by decide)
  · rw [show asBytes "1700000000" = _ from asBytes_ofList ['1','7','0','0','0','0','0','0','0','0']]
    decide

theorem eleven_digits : SucceedsBy keyring .discord (hexEncode pk) sig (stamped "17000000001" [48]) := by
  apply stamped_succeeds
  · exact visible_of_all (by decide)
  · rw [show asBytes "17000000001" = _ from asBytes_ofList ['1','7','0','0','0','0','0','0','0','0','1']]
    decide

end Keyring

open Keyring in
theorem signature_binds_body_keyring :
    (hooked "one").body = (hooked "two").body ∧
    (∃ ts₁ ts₂, headerText (stamped "1700000000" [49,48]).headers "x-signature-timestamp" = some ts₁ ∧
      headerText (stamped "17000000001" [48]).headers "x-signature-timestamp" = some ts₂ ∧
      asBytes ts₁ ++ [49,48] = asBytes ts₂ ++ [48] ∧
      (([49,48] : Bytes) = [48] ↔ (asBytes ts₁).length = (asBytes ts₂).length)) :=
  ⟨(signature_binds_body keyring keyring_unforgeable .gitHub "secret" tag (hooked "one") (hooked "two")
      (hooked_succeeds "one") (hooked_succeeds "two")).1 (by decide),
    (signature_binds_body keyring keyring_unforgeable .discord (hexEncode pk) sig (stamped "1700000000" [49,48])
      (stamped "17000000001" [48]) ten_digits eleven_digits).2 rfl⟩

open Keyring in
theorem discord_cut_moves : Unforgeable keyring ∧
    SucceedsBy keyring .discord (hexEncode pk) sig (stamped "1700000000" [49,48]) ∧
    SucceedsBy keyring .discord (hexEncode pk) sig (stamped "17000000001" [48]) ∧
    (stamped "1700000000" [49,48]).body ≠ (stamped "17000000001" [48]).body :=
  ⟨keyring_unforgeable,ten_digits,eleven_digits,by decide⟩

end AetherRelay
