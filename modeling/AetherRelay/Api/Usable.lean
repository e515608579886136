import AetherRelay.Api.Endpoints
import AetherRelay.Crypto.Notification

namespace AetherRelay

def Usable (x : Externals) (provider secret : String) : Prop :=
  ∃ p body headers now, Provider.fromStr x provider = .ok p ∧ verifySignature x p secret body headers now = .ok ()

-- What is assumed of the primitives. `valid` are the Ed25519 public keys: 32
-- bytes that decode to a point, and not to one of the weak ones, which
-- verify_strict refuses under every signature. serde_json reads some notification
-- with a given signature.
structure Capable (x : Externals) (valid : Bytes → Prop) : Prop where
  decodes : ∀ pk, valid pk → pk.length = 32 ∧ x.ed25519Key pk = true
  signs : ∀ pk, valid pk → ∃ message sig, sig.length = 64 ∧ x.ed25519Verify pk message sig = true
  strict : ∀ pk message sig, pk.length = 32 → x.ed25519Key pk = true → x.ed25519Verify pk message sig = true →
    valid pk
  notices : ∀ digest, ∃ body, Midtrans.read x body = some ⟨"1","200","1.00",hexEncode digest⟩

def Solid (s : List Char) : Prop := ∀ c ∈ s, isWhitespace c = false

theorem dropWhile_solid (solid : Solid s) : s.dropWhile isWhitespace = s := by
  cases s with
  | nil => rfl
  | cons c rest => simp [solid c List.mem_cons_self]

theorem trim_solid (solid : Solid s) : trim s = s := by
  have back : Solid s.reverse := fun c inside => solid c (List.mem_reverse.mp inside)
  rw [trim,dropWhile_solid solid,dropWhile_solid back,List.reverse_reverse]

theorem hexChar_plain : ∀ n < 16, isWhitespace (hexChar n) = false ∧ hexChar n ≠ ',' ∧ hexChar n ≠ '\"' := by
  decide

theorem hexEncode_plain (bytes : Bytes) :
    ∀ c ∈ (hexEncode bytes).toList, isWhitespace c = false ∧ c ≠ ',' ∧ c ≠ '\"' := by
  intro c inside
  rw [hexEncode,String.toList_ofList] at inside
  obtain ⟨b,_,member⟩ := List.mem_flatMap.mp inside
  have high : b.toNat / 16 < 16 := by have := b.toNat_lt; omega
  rcases List.mem_cons.mp member with rfl | last
  · exact hexChar_plain _ high
  · obtain rfl := List.mem_singleton.mp last
    exact hexChar_plain _ (Nat.mod_lt _ (by decide))

theorem hexEncode_solid (bytes : Bytes) : Solid (hexEncode bytes).toList :=
  fun c inside => (hexEncode_plain bytes c inside).1

theorem visible_append {s t : String} (one : ∀ c ∈ s.toList, VisibleAscii c) (two : ∀ c ∈ t.toList, VisibleAscii c) :
    ∀ c ∈ (s ++ t).toList, VisibleAscii c := by
  intro c inside
  rw [String.toList_append] at inside
  rcases List.mem_append.mp inside with left | right
  · exact one c left
  · exact two c right

section accepting
variable (x : Externals) (secret : String)

def tagOf (text : Bytes) : Bytes := x.hmacSha256 (asBytes secret) text

theorem gitHub_accepts : verifySignature x .gitHub secret []
    [("x-hub-signature-256",Keyring.text ("sha256=" ++ hexEncode (tagOf x secret [])))] 0 = .ok () := by
  have visible := visible_append (s:="sha256=") (Keyring.visible_of_all (by decide))
    (hexEncode_visible (tagOf x secret []))
  have cut : "sha256=".toList.isPrefixOf? ("sha256=" ++ hexEncode (tagOf x secret [])).toList =
      some (hexEncode (tagOf x secret [])).toList := by
    rw [String.toList_append]
    rfl
  simp only [verifySignature,Keyring.headerText_head visible,GitHub.verify,cut,hexDecode_hexEncode]
  exact (hmacVerify_ok x).mpr rfl

theorem generic_accepts : verifySignature x .generic secret []
    [("x-signature",Keyring.text (hexEncode (tagOf x secret [])))] 0 = .ok () := by
  have read : headerText [("x-signature",Keyring.text (hexEncode (tagOf x secret [])))] "x-signature" =
      some (hexEncode (tagOf x secret [])) := Keyring.headerText_head (hexEncode_visible _)
  have first : (HeaderMap.get [("x-signature",Keyring.text (hexEncode (tagOf x secret [])))] "x-signature").isSome :=
    rfl
  rw [headerText] at read
  rw [verifySignature,Option.or_of_isSome first,read]
  simp only [Generic.verify,trim_solid (hexEncode_solid _),hexDecode_hexEncode]
  exact (hmacVerify_ok x).mpr rfl

theorem stripe_items (hex : List Char) (comma : ∀ c ∈ hex, c ≠ ',') :
    Stripe.items (String.ofList ("t=0,v1=".toList ++ hex)) = ["t=0".toList,"v1=".toList ++ hex] := by
  have parts : "t=0,v1=".toList ++ hex = [','].intercalate ["t=0".toList,"v1=".toList ++ hex] := by
    simp [List.intercalate]
  rw [Stripe.items,String.toList_ofList,parts]
  apply List.splitOn_intercalate
  · intro part inside
    rcases List.mem_cons.mp inside with rfl | last
    · decide
    · obtain rfl := List.mem_singleton.mp last
      intro member
      rcases List.mem_append.mp member with name | value
      · exact absurd name (by decide)
      · exact comma _ value rfl
  · simp

theorem stripe_accepts : verifySignature x .stripe secret []
    [("stripe-signature",Keyring.text ("t=0,v1=" ++ hexEncode (tagOf x secret (Stripe.payload 0 []))))] 0 = .ok () := by
  have visible := visible_append (s:="t=0,v1=") (Keyring.visible_of_all (by decide))
    (hexEncode_visible (tagOf x secret (Stripe.payload 0 [])))
  simp only [verifySignature,Keyring.headerText_head visible]
  refine (Stripe.verify_accepts x).mpr ⟨0,?_,by decide,?_⟩
  all_goals
    have items := stripe_items (hexEncode (tagOf x secret (Stripe.payload 0 []))).toList
      fun c inside => (hexEncode_plain _ c inside).2.1
    rw [show String.ofList ("t=0,v1=".toList ++ (hexEncode (tagOf x secret (Stripe.payload 0 []))).toList) =
      "t=0,v1=" ++ hexEncode (tagOf x secret (Stripe.payload 0 [])) from String.toList_inj.mp (by simp)] at items
  · rw [Stripe.timestamps,items]
    rfl
  · rw [Stripe.digests,items]
    have value : Stripe.field ("v1=".toList ++ (hexEncode (tagOf x secret (Stripe.payload 0 []))).toList) =
        some ("v1".toList,(hexEncode (tagOf x secret (Stripe.payload 0 []))).toList) := by
      rw [Stripe.field]
      change some (_,trim (hexEncode (tagOf x secret (Stripe.payload 0 []))).toList) = _
      rw [trim_solid (hexEncode_solid _)]
      rfl
    refine List.mem_filterMap.mpr ⟨_,List.mem_cons_of_mem _ (List.mem_singleton_self _),?_⟩
    rw [Stripe.digest,Stripe.valueOf,value]
    exact hexDecode_hexEncode _

theorem midtrans_accepts (notices : ∀ digest, ∃ body, Midtrans.read x body = some ⟨"1","200","1.00",hexEncode digest⟩) :
    ∃ body, verifySignature x .midtrans secret body [] 0 = .ok () := by
  obtain ⟨body,read⟩ := notices (x.sha512 (asBytes ("1" ++ "200" ++ "1.00" ++ secret)))
  exact ⟨body,Midtrans.verify_ok.mpr ⟨_,read,rfl⟩⟩

theorem discord_accepts (key : hexDecode secret.toList = some pk) (valid : pk.length = 32 ∧ x.ed25519Key pk = true)
    (signed : sig.length = 64 ∧ x.ed25519Verify pk message sig = true) :
    verifySignature x .discord secret message
      [("x-signature-ed25519",Keyring.text (hexEncode sig)),("x-signature-timestamp",[])] 0 = .ok () := by
  have value : headerText [("x-signature-ed25519",Keyring.text (hexEncode sig)),("x-signature-timestamp",[])]
      "x-signature-ed25519" = some (hexEncode sig) := Keyring.headerText_head (hexEncode_visible sig)
  have time : headerText [("x-signature-ed25519",Keyring.text (hexEncode sig)),("x-signature-timestamp",[])]
      "x-signature-timestamp" = some "" := by
    rw [Keyring.headerText_tail (by decide)]
    simp [headerText,HeaderMap.get,toStr]
  have whole : asBytes "" ++ message = message := by
    rw [show asBytes "" = _ from asBytes_ofList []]
    rfl
  simp only [verifySignature,value,time,Discord.verify,key,hexDecode_hexEncode,whole]
  rw [if_pos ⟨valid.1,signed.1,valid.2,signed.2⟩]

end accepting

def SecretFits (x : Externals) (valid : Bytes → Prop) (provider secret : String) : Prop :=
  toLowercase x provider = "discord" → ∃ pk, hexDecode secret.toList = some pk ∧ valid pk

theorem fromStr_discord : Provider.fromStr x s = .ok .discord ↔ toLowercase x s = "discord" := by
  unfold Provider.fromStr
  dsimp only
  split
  · rename_i other
    simp [other]
  · split
    · rename_i other
      simp [other]
    · split
      · rename_i other
        simp [other]
      · split
        · rename_i named
          simp [named]
        · rename_i other
          split <;> simp [other]

theorem validateNewEndpoint_provider (valid : validateNewEndpoint x req = .ok ()) :
    ∃ p, Provider.fromStr x req.provider = .ok p := by
  unfold validateNewEndpoint at valid
  by_cases nameless : trim req.name.toList = []
  · rw [if_pos nameless] at valid
    cases valid
  · rw [if_neg nameless] at valid
    cases named : Provider.fromStr x req.provider with
    | ok p => exact ⟨p,rfl⟩
    | error e =>
      rw [named] at valid
      cases valid

theorem usable_key {valid : Bytes → Prop} (strict : ∀ pk message sig, pk.length = 32 → x.ed25519Key pk = true →
    x.ed25519Verify pk message sig = true → valid pk) (discord : toLowercase x provider = "discord")
    (usable : Usable x provider secret) : ∃ pk, hexDecode secret.toList = some pk ∧ valid pk := by
  obtain ⟨q,body,headers,now,same,accepted⟩ := usable
  cases (fromStr_discord.mpr discord).symm.trans same
  simp only [verifySignature] at accepted
  split at accepted
  · rename_i sig ts _ _
    unfold Discord.verify at accepted
    split at accepted
    · rename_i pk bytes key _
      split at accepted
      · rename_i checks
        exact ⟨pk,key,strict pk _ _ checks.1 checks.2.2.1 checks.2.2.2⟩
      · cases accepted
    · cases accepted
  · cases accepted

-- Every configuration that creation lets through can be used, but for a Discord
-- endpoint whose secret is not a public key.
theorem endpoint_usable_exact (x : Externals) (valid : Bytes → Prop) (capable : Capable x valid)
    (req : CreateEndpointRequest) (created : validateNewEndpoint x req = .ok ()) :
    Usable x req.provider req.secret ↔ SecretFits x valid req.provider req.secret := by
  obtain ⟨p,named⟩ := validateNewEndpoint_provider created
  constructor
  · exact fun usable discord => usable_key capable.strict discord usable
  · intro fits
    cases p with
    | gitHub => exact ⟨_,_,_,_,named,gitHub_accepts x req.secret⟩
    | stripe => exact ⟨_,_,_,_,named,stripe_accepts x req.secret⟩
    | generic => exact ⟨_,_,_,_,named,generic_accepts x req.secret⟩
    | midtrans =>
      obtain ⟨body,accepted⟩ := midtrans_accepts x req.secret capable.notices
      exact ⟨_,body,_,_,named,accepted⟩
    | discord =>
      obtain ⟨pk,key,good⟩ := fits (fromStr_discord.mp named)
      obtain ⟨message,sig,signed⟩ := capable.signs pk good
      exact ⟨_,_,_,_,named,discord_accepts x req.secret key (capable.decodes pk good) signed⟩

theorem isPrefixOf?_append [DecidableEq α] (l rest : List α) : l.isPrefixOf? (l ++ rest) = some rest := by
  induction l with
  | nil => rfl
  | cons a l ih => simp [List.isPrefixOf?,ih]

namespace Registry
open Keyring

def opening : String :=
  "\x7b\"order_id\":\"1\",\"status_code\":\"200\",\"gross_amount\":\"1.00\",\"signature_key\":\""

def readNotice (body : Bytes) : Option Json :=
  ((text opening).isPrefixOf? body).bind fun rest =>
    ((text "\x7d\"").isPrefixOf? rest.reverse).bind fun value =>
      (toStr value.reverse).map fun key => .object [("gross_amount",.string "1.00"),("order_id",.string "1"),
        ("signature_key",.string key),("status_code",.string "200")]

def crates : Externals := { keyring with parseJson := readNotice }

def notice (digest : Bytes) : Bytes := text opening ++ (text (hexEncode digest) ++ (text "\x7d\"").reverse)

theorem notice_read (digest : Bytes) : Midtrans.read crates (notice digest) = some ⟨"1","200","1.00",hexEncode digest⟩ := by
  have parsed : readNotice (notice digest) = some (.object [("gross_amount",.string "1.00"),("order_id",.string "1"),
      ("signature_key",.string (hexEncode digest)),("status_code",.string "200")]) := by
    rw [readNotice,notice,isPrefixOf?_append,Option.bind_some,List.reverse_append,List.reverse_reverse,
      isPrefixOf?_append,Option.bind_some,List.reverse_reverse,toStr_text (hexEncode_visible digest)]
    rfl
  simp only [Midtrans.read,crates,parsed]
  rfl

theorem crates_capable : Capable crates (· = pk) where
  decodes := by
    intro key same
    subst same
    exact ⟨rfl,by simp [crates,keyring]⟩
  signs := by
    intro key same
    subst same
    exact ⟨message,sig,rfl,by simp [crates,keyring]⟩
  strict := by
    intro key _ _ _ known _
    simpa [crates,keyring] using known
  notices := fun digest => ⟨notice digest,notice_read digest⟩

def request (secret : String) : CreateEndpointRequest := ⟨"orders","Discord",secret,"https://hooks.example.com/in"⟩

theorem key_created : validateNewEndpoint crates (request (hexEncode pk)) = .ok () := by decide +kernel

end Registry

open Registry Keyring in
theorem endpoint_usable_exact_registry : Usable crates "Discord" (hexEncode pk) ↔
    SecretFits crates (· = pk) "Discord" (hexEncode pk) :=
  endpoint_usable_exact crates (· = pk) crates_capable (request (hexEncode pk)) key_created

open Registry Keyring in
theorem discord_secret_unchecked : Capable crates (· = pk) ∧
    validateNewEndpoint crates (request "my signing secret") = .ok () ∧ ¬Usable crates "Discord" "my signing secret" := by
  refine ⟨crates_capable,by decide +kernel,fun usable => ?_⟩
  obtain ⟨key,decoded,_⟩ := usable_key crates_capable.strict (by decide +kernel) usable
  have unread : hexDecode "my signing secret".toList = none := by decide
  rw [unread] at decoded
  cases decoded

end AetherRelay
