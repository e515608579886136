import AetherRelay.Error
import AetherRelay.Crypto.Encoding

namespace AetherRelay

inductive Provider where
  | gitHub
  | stripe
  | midtrans
  | discord
  | generic
deriving DecidableEq, Repr

-- str::to_lowercase, its Unicode tables left to the library.
def toLowercase (x : Externals) (s : String) : String :=
  if s.toList.all (·.toNat < 128) then String.ofList (s.toList.map Char.toLower) else x.lowercaseUnicode s

def Provider.fromStr (x : Externals) (s : String) : Except AppError Provider :=
  let lowered := toLowercase x s
  if lowered = "github" then .ok .gitHub
  else if lowered = "stripe" then .ok .stripe
  else if lowered = "midtrans" then .ok .midtrans
  else if lowered = "discord" then .ok .discord
  else if lowered = "generic" then .ok .generic
  else .error (.unsupportedProvider lowered)

section
variable (x : Externals)

-- Hmac::new_from_slice takes a key of any length and verify_slice compares the
-- whole tag, length included.
def hmacVerify (secret payload expected : Bytes) : Except AppError Unit :=
  if x.hmacSha256 secret payload = expected then .ok () else .error .invalidSignature

def GitHub.verify (secret body : Bytes) (signatureHeader : String) : Except AppError Unit :=
  match "sha256=".toList.isPrefixOf? signatureHeader.toList with
  | none => .error .invalidSignature
  | some sigHex => match hexDecode sigHex with
    | none => .error .invalidSignature
    | some expected => hmacVerify x secret body expected

def Generic.verify (secret body : Bytes) (signatureHex : String) : Except AppError Unit :=
  match hexDecode (trim signatureHex.toList) with
  | none => .error .invalidSignature
  | some expected => hmacVerify x secret body expected

namespace Stripe

def defaultToleranceSecs : Nat := 300

-- One turn of the loop over the header's items: the last readable `t` wins and
-- every `v1` is kept, in order.
def readItem (seen : Option Nat × List (List Char)) (item : List Char) : Option Nat × List (List Char) :=
  match splitOnce '=' item with
  | none => seen
  | some (rawKey,rawVal) =>
    let key := trim rawKey
    let val := trim rawVal
    if key = ['t'] then
      match parseU64 val with
      | some ts => (some ts,seen.2)
      | none => seen
    else if key = ['v','1'] then (seen.1,seen.2 ++ [val])
    else seen

def payload (ts : Nat) (body : Bytes) : Bytes := asBytes (toString ts) ++ asBytes "." ++ body

def verify (secret body : Bytes) (signatureHeader : String) (toleranceSecs : Option Nat) (now : Nat) :
    Except AppError Unit :=
  let (timestamp,signatures) := (signatureHeader.toList.splitOn ',').foldl readItem (none,[])
  match timestamp with
  | none => .error .invalidSignature
  | some ts =>
    if signatures = [] then .error .invalidSignature
    else if (max now ts - min now ts) > toleranceSecs.getD defaultToleranceSecs then .error .invalidSignature
    else if signatures.any (fun sigHex => hexDecode sigHex = some (x.hmacSha256 secret (payload ts body))) then .ok ()
    else .error .invalidSignature

end Stripe

def Midtrans.verify (serverKey : String) (body : Bytes) : Except AppError Unit :=
  match x.parseJson body with
  | none => .error .invalidSignature
  | some json =>
    match (json.index "order_id").asStr,(json.index "status_code").asStr,
        (json.index "gross_amount").asStr,(json.index "signature_key").asStr with
    | some orderId,some statusCode,some grossAmount,some signatureKey =>
      let payload := orderId ++ statusCode ++ grossAmount ++ serverKey
      if hexEncode (x.sha512 (asBytes payload)) = signatureKey then .ok () else .error .invalidSignature
    | _,_,_,_ => .error .invalidSignature

def Discord.verify (publicKeyHex : String) (body : Bytes) (signatureHex timestamp : String) :
    Except AppError Unit :=
  match hexDecode publicKeyHex.toList,hexDecode signatureHex.toList with
  | some pk,some sig =>
    if pk.length = 32 ∧ sig.length = 64 ∧ x.ed25519Key pk = true ∧
        x.ed25519Verify pk (asBytes timestamp ++ body) sig = true then .ok ()
    else .error .invalidSignature
  | _,_ => .error .invalidSignature

-- `now` is the second the Stripe adapter reads off the system clock.
def verifySignature (provider : Provider) (secret : String) (body : Bytes) (headers : HeaderMap) (now : Nat) :
    Except AppError Unit :=
  match provider with
  | .gitHub => match headerText headers "x-hub-signature-256" with
    | none => .error .invalidSignature
    | some sig => GitHub.verify x (asBytes secret) body sig
  | .stripe => match headerText headers "stripe-signature" with
    | none => .error .invalidSignature
    | some sig => Stripe.verify x (asBytes secret) body sig none now
  | .midtrans => Midtrans.verify x secret body
  | .discord =>
    match headerText headers "x-signature-ed25519",headerText headers "x-signature-timestamp" with
    | some sig,some ts => Discord.verify x secret body sig ts
    | _,_ => .error .invalidSignature
  | .generic =>
    match ((headers.get "x-signature").or (headers.get "signature")).bind toStr with
    | none => .error .invalidSignature
    | some sig => Generic.verify x (asBytes secret) body sig

end
end AetherRelay
