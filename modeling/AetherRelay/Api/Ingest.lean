import AetherRelay.Config
import AetherRelay.Api.Auth
import AetherRelay.Crypto.Verify

namespace AetherRelay

def maxIdempotencyKeyLen : Nat := 255

-- What axum hands to handle_ingest: the path segment, the headers, the raw body.
structure IngestRequest where
  endpointId : Uuid
  headers : HeaderMap
  body : Bytes
deriving DecidableEq

-- to_str admits visible ASCII only, so the length in bytes is the length in characters.
def idempotencyKey (headers : HeaderMap) : Except AppError String :=
  match (headerText headers "idempotency-key").filter
      (fun v => v ≠ "" && v.length ≤ maxIdempotencyKeyLen) with
  | some key => .ok key
  | none => .error (.badRequest
      s!"Missing or invalid Idempotency-Key header (must be 1..={maxIdempotencyKeyLen} characters)")

def admitIngest (cfg : AppConfig) (req : IngestRequest) : Except AppError String := do
  if req.body.length > cfg.server.bodyLimitBytes then throw .payloadTooLarge
  verifyApiKey req.headers cfg.auth.apiKeys
  idempotencyKey req.headers

def verifyIngest (x : Externals) (endpoint : EndpointRecord) (req : IngestRequest) (now : Nat) :
    Except AppError Unit := do
  let provider ← Provider.fromStr x endpoint.provider
  verifySignature x provider endpoint.secret req.body req.headers now

-- serde_json::Map keeps its keys sorted and an insert replaces.
def insertSorted (name value : String) : List (String × String) → List (String × String)
  | [] => [(name,value)]
  | (n,v) :: rest =>
    if name = n then (name,value) :: rest
    else if name < n then (name,value) :: (n,v) :: rest
    else (n,v) :: insertSorted name value rest

def headerMap (headers : HeaderMap) : List (String × String) :=
  headers.foldl (fun snapshot header =>
    match toStr header.2 with
    | some value => insertSorted header.1 value snapshot
    | none => snapshot) []

def headersJson (x : Externals) (headers : HeaderMap) : String := x.renderHeaders (headerMap headers)

structure Admitted (cfg : AppConfig) (req : IngestRequest) (key : String) : Prop where
  size : req.body.length ≤ cfg.server.bodyLimitBytes
  allowed : KeyAllowed req.headers cfg.auth.apiKeys
  named : headerText req.headers "idempotency-key" = some key
  bounded : 1 ≤ key.length ∧ key.length ≤ 255
  visible : ∀ c ∈ key.toList, VisibleAscii c

def Verified (x : Externals) (endpoint : EndpointRecord) (req : IngestRequest) : Prop :=
  ∃ now provider, Provider.fromStr x endpoint.provider = .ok provider ∧
    verifySignature x provider endpoint.secret req.body req.headers now = .ok ()

theorem idempotencyKey_ok (read : idempotencyKey headers = .ok key) :
    headerText headers "idempotency-key" = some key ∧ (1 ≤ key.length ∧ key.length ≤ 255) ∧
      ∀ c ∈ key.toList, VisibleAscii c := by
  unfold idempotencyKey at read
  split at read
  · rename_i found
    cases read
    obtain ⟨text,bounds⟩ := Option.filter_eq_some_iff.mp found
    have bounds : key ≠ "" ∧ key.length ≤ maxIdempotencyKeyLen := by simpa using bounds
    obtain ⟨value,_,printed⟩ := Option.bind_eq_some_iff.mp text
    refine ⟨text,⟨?_,bounds.2⟩,fun c member => toStr_visible printed member⟩
    exact Nat.pos_of_ne_zero fun zero => bounds.1 (String.length_eq_zero_iff.mp zero)
  · cases read

theorem admitIngest_ok (passed : admitIngest cfg req = .ok key) : Admitted cfg req key := by
  unfold admitIngest at passed
  by_cases large : req.body.length > cfg.server.bodyLimitBytes
  · rw [if_pos large] at passed
    cases passed
  · rw [if_neg large] at passed
    cases checked : verifyApiKey req.headers cfg.auth.apiKeys with
    | error e =>
      rw [checked] at passed
      cases passed
    | ok u =>
      rw [checked] at passed
      obtain ⟨text,bounds,visible⟩ := idempotencyKey_ok passed
      exact ⟨Nat.le_of_not_lt large,verifyApiKey_exact.mp checked,text,bounds,visible⟩

theorem verifyIngest_ok (passed : verifyIngest x endpoint req now = .ok ()) : Verified x endpoint req := by
  unfold verifyIngest at passed
  cases named : Provider.fromStr x endpoint.provider with
  | error e =>
    rw [named] at passed
    cases passed
  | ok provider =>
    rw [named] at passed
    exact ⟨now,provider,named,passed⟩

end AetherRelay
