import AetherRelay.Error
import AetherRelay.Crypto.Encoding

namespace AetherRelay

def verifyApiKey (headers : HeaderMap) (allowedKeys : List String) : Except AppError Unit :=
  if allowedKeys = [] then .ok ()
  else match headerText headers "x-api-key" with
    | none => .error (.unauthorized "Missing X-Api-Key header")
    | some key =>
      if key ∈ allowedKeys then .ok () else .error (.unauthorized "Invalid X-Api-Key")

def KeyAllowed (headers : HeaderMap) (allowedKeys : List String) : Prop :=
  allowedKeys = [] ∨ ∃ key ∈ allowedKeys, headerText headers "x-api-key" = some key

theorem verifyApiKey_exact : verifyApiKey headers allowedKeys = .ok () ↔ KeyAllowed headers allowedKeys := by
  unfold verifyApiKey KeyAllowed
  by_cases none : allowedKeys = []
  · simp [none]
  · cases sent : headerText headers "x-api-key" with
    | none => simp [none]
    | some key => by_cases known : key ∈ allowedKeys <;> simp [none,known]

end AetherRelay
