import AetherRelay.Crypto.Binding

namespace AetherRelay

structure Notification where
  orderId : String
  statusCode : String
  grossAmount : String
  signatureKey : String
deriving DecidableEq, Repr

namespace Midtrans

def read (x : Externals) (body : Bytes) : Option Notification := do
  let json ← x.parseJson body
  let orderId ← (json.index "order_id").asStr
  let statusCode ← (json.index "status_code").asStr
  let grossAmount ← (json.index "gross_amount").asStr
  let signatureKey ← (json.index "signature_key").asStr
  return ⟨orderId,statusCode,grossAmount,signatureKey⟩

def payload (n : Notification) (serverKey : String) : String :=
  n.orderId ++ n.statusCode ++ n.grossAmount ++ serverKey

theorem verify_read : verify x serverKey body = match read x body with
    | some n => if hexEncode (x.sha512 (asBytes (payload n serverKey))) = n.signatureKey then .ok ()
      else .error .invalidSignature
    | none => .error .invalidSignature := by
  unfold verify read
  cases x.parseJson body with
  | none => rfl
  | some json =>
    dsimp only [Option.bind_eq_bind,Option.bind_some]
    generalize (json.index "order_id").asStr = orderId
    generalize (json.index "status_code").asStr = statusCode
    generalize (json.index "gross_amount").asStr = grossAmount
    generalize (json.index "signature_key").asStr = signatureKey
    cases orderId <;> cases statusCode <;> cases grossAmount <;> cases signatureKey <;> rfl

theorem verify_ok : verify x serverKey body = .ok () ↔
    ∃ n, read x body = some n ∧ hexEncode (x.sha512 (asBytes (payload n serverKey))) = n.signatureKey := by
  rw [verify_read]
  cases read x body with
  | none => simp
  | some n => by_cases same : hexEncode (x.sha512 (asBytes (payload n serverKey))) = n.signatureKey <;> simp [same]

end Midtrans

theorem hexEncode_injective : Function.Injective hexEncode := by
  intro one two same
  have back := hexDecode_hexEncode one
  rw [same,hexDecode_hexEncode] at back
  exact (Option.some.inj back).symm

theorem cut_in_three {a b c a' b' c' : String} (same : a ++ b ++ c = a' ++ b' ++ c') :
    (a = a' ∧ b = b' ∧ c = c') ↔ a.length = a'.length ∧ b.length = b'.length := by
  constructor
  · intro equal
    exact ⟨congrArg String.length equal.1,congrArg String.length equal.2.1⟩
  · intro lengths
    have chars : a.toList ++ (b.toList ++ c.toList) = a'.toList ++ (b'.toList ++ c'.toList) := by
      simpa [← String.toList_inj] using same
    obtain ⟨first,rest⟩ := List.append_inj chars (by simpa only [String.length_toList] using lengths.1)
    obtain ⟨second,third⟩ := List.append_inj rest (by simpa only [String.length_toList] using lengths.2)
    exact ⟨String.toList_inj.mp first,String.toList_inj.mp second,String.toList_inj.mp third⟩

-- The digest is over the three fields run together, so the signature fixes the
-- text but not where one field ends and the next begins.
theorem notification_binds_text (x : Externals) (digests : Function.Injective x.sha512) (serverKey : String)
    (body₁ body₂ : Bytes) (n₁ n₂ : Notification)
    (first : Midtrans.verify x serverKey body₁ = .ok ()) (second : Midtrans.verify x serverKey body₂ = .ok ())
    (read₁ : Midtrans.read x body₁ = some n₁) (read₂ : Midtrans.read x body₂ = some n₂)
    (same : n₁.signatureKey = n₂.signatureKey) :
    n₁.orderId ++ n₁.statusCode ++ n₁.grossAmount = n₂.orderId ++ n₂.statusCode ++ n₂.grossAmount ∧
    ((n₁.orderId = n₂.orderId ∧ n₁.statusCode = n₂.statusCode ∧ n₁.grossAmount = n₂.grossAmount) ↔
      n₁.orderId.length = n₂.orderId.length ∧ n₁.statusCode.length = n₂.statusCode.length) := by
  obtain ⟨_,found₁,signed₁⟩ := Midtrans.verify_ok.mp first
  obtain ⟨_,found₂,signed₂⟩ := Midtrans.verify_ok.mp second
  cases read₁.symm.trans found₁
  cases read₂.symm.trans found₂
  have digest : x.sha512 (asBytes (Midtrans.payload n₁ serverKey)) = x.sha512 (asBytes (Midtrans.payload n₂ serverKey)) :=
    hexEncode_injective (signed₁.trans (same.trans signed₂.symm))
  have text : Midtrans.payload n₁ serverKey = Midtrans.payload n₂ serverKey := asBytes_injective (digests digest)
  have fields : n₁.orderId ++ n₁.statusCode ++ n₁.grossAmount = n₂.orderId ++ n₂.statusCode ++ n₂.grossAmount := by
    have chars := congrArg String.toList text
    simp only [Midtrans.payload,String.toList_append] at chars
    apply String.toList_inj.mp
    simpa only [String.toList_append] using List.append_cancel_right chars
  exact ⟨fields,cut_in_three fields⟩

namespace Shop

def digest : Bytes := [252,212,224,11,5,8,62,190,20,9,89,197,204,7,255,133,0,118,249,181,190,244,116,96,98,172,37,167,
  175,104,102,162,98,95,34,45,213,221,5,150,115,62,109,157,31,26,131,170,252,189,103,12,212,107,243,180,253,158,240,166,
  248,51,198,94]

-- The text A200200200.00secret.
def signed : Bytes := [65,50,48,48,50,48,48,50,48,48,46,48,48,115,101,99,114,101,116]

def notice (orderId grossAmount : String) : Notification := ⟨orderId,"200",grossAmount,hexEncode digest⟩

def json (n : Notification) : Json := .object [("gross_amount",.string n.grossAmount),("order_id",.string n.orderId),
  ("signature_key",.string n.signatureKey),("status_code",.string n.statusCode)]

def body (n : Notification) : Bytes := Keyring.text ("\x7b\"order_id\":\"" ++ n.orderId ++ "\",\"status_code\":\"" ++
  n.statusCode ++ "\",\"gross_amount\":\"" ++ n.grossAmount ++ "\",\"signature_key\":\"" ++ n.signatureKey ++ "\"\x7d")

def small : Notification := notice "A200" "200.00"
def large : Notification := notice "A" "200200.00"

def crates : Externals := { Externals.tabletop with
  sha512 := fun message => if message = signed then digest else 0 :: message
  parseJson := fun text =>
    if text = body small then some (json small) else if text = body large then some (json large) else none }

theorem digests : Function.Injective crates.sha512 := by
  intro m₁ m₂ same
  simp only [crates,digest] at same
  split at same <;> split at same <;> simp_all

theorem text_append (one two : String) : Keyring.text (one ++ two) = Keyring.text one ++ Keyring.text two := by
  unfold Keyring.text
  rw [String.toList_append,List.map_append]

theorem bodies_differ : body large ≠ body small := by
  intro same
  unfold body at same
  simp only [text_append,List.append_assoc] at same
  have fields := congrArg (fun rest : Bytes => rest[1]?) (List.append_cancel_left same)
  exact absurd fields (by decide)

theorem small_read : Midtrans.read crates (body small) = some small := by
  simp only [Midtrans.read,crates,if_true]
  rfl

theorem large_read : Midtrans.read crates (body large) = some large := by
  simp only [Midtrans.read,crates,if_neg bodies_differ,if_true]
  rfl

theorem accepted (read : Midtrans.read crates text = some n) (carries : n.signatureKey = hexEncode digest)
    (signs : asBytes (Midtrans.payload n "secret") = signed) : Midtrans.verify crates "secret" text = .ok () := by
  refine Midtrans.verify_ok.mpr ⟨n,read,?_⟩
  rw [signs,carries]
  simp only [crates,if_true]

theorem small_accepted : Midtrans.verify crates "secret" (body small) = .ok () := by
  refine accepted small_read rfl ?_
  rw [show asBytes (Midtrans.payload small "secret") = _ from
    asBytes_ofList ['A','2','0','0','2','0','0','2','0','0','.','0','0','s','e','c','r','e','t']]
  decide

theorem large_accepted : Midtrans.verify crates "secret" (body large) = .ok () := by
  refine accepted large_read rfl ?_
  rw [show asBytes (Midtrans.payload large "secret") = _ from
    asBytes_ofList ['A','2','0','0','2','0','0','2','0','0','.','0','0','s','e','c','r','e','t']]
  decide

end Shop

open Shop in
theorem notification_binds_text_shop :
    ("A200" ++ "200" ++ "200.00" : String) = "A" ++ "200" ++ "200200.00" ∧
    (("A200" = "A" ∧ "200" = "200" ∧ "200.00" = "200200.00") ↔
      "A200".length = "A".length ∧ "200".length = "200".length) :=
  notification_binds_text crates digests "secret" (body small) (body large) small large small_accepted
    large_accepted small_read large_read rfl

-- A paid order A200 over 200.00 and an order A over 200200.00 carry one signature.
open Shop in
theorem order_cut_moves : Function.Injective crates.sha512 ∧
    Midtrans.verify crates "secret" (body small) = .ok () ∧ Midtrans.verify crates "secret" (body large) = .ok () ∧
    Midtrans.read crates (body small) = some small ∧ Midtrans.read crates (body large) = some large ∧
    small.signatureKey = large.signatureKey ∧
    (small.orderId,small.statusCode,small.grossAmount) ≠ (large.orderId,large.statusCode,large.grossAmount) :=
  ⟨digests,small_accepted,large_accepted,small_read,large_read,rfl,by decide⟩

end AetherRelay
