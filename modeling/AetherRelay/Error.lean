import Mathlib.Data.String.Basic

namespace AetherRelay

-- What a statement, or taking a connection from the pool, can answer instead of
-- a result. The last case is every failure that is not the schema's own doing.
inductive SqlError where
  | queryReturnedNoRows
  | uniqueConstraint (columns : String)
  | foreignKeyConstraint
  | integralValueOutOfRange (index value : Nat)
  | failure (text : String)
deriving DecidableEq, Repr

def SqlError.text : SqlError → String
  | .queryReturnedNoRows => "Query returned no rows"
  | .uniqueConstraint columns => "UNIQUE constraint failed: " ++ columns
  | .foreignKeyConstraint => "FOREIGN KEY constraint failed"
  | .integralValueOutOfRange index value => s!"Integer {value} out of range at index {index}"
  | .failure text => text

-- A failure that comes from outside the table. That no row was returned is not
-- one: the handlers that look for it would take it for their 404.
structure Fault where
  error : SqlError
  outside : error ≠ .queryReturnedNoRows
deriving DecidableEq

def Fault.failure (text : String) : Fault := ⟨.failure text,by simp⟩

inductive AppError where
  | config (text : String)
  | unauthorized (text : String)
  | invalidSignature
  | payloadTooLarge
  | badRequest (text : String)
  | unsupportedProvider (provider : String)
  | duplicateIdempotencyKey (status : String)
  | conflict (text : String)
  | database (error : SqlError)
  | notFound (text : String)
  | internal (text : String)
deriving DecidableEq, Repr

namespace AppError

def statusCode : AppError → Nat
  | .config _ | .database _ | .internal _ => 500
  | .unauthorized _ | .invalidSignature => 401
  | .payloadTooLarge => 413
  | .badRequest _ | .unsupportedProvider _ => 400
  | .duplicateIdempotencyKey _ | .conflict _ => 409
  | .notFound _ => 404

def genericInternal : String := "Internal server error"

structure Response where
  status : Nat
  code : String
  error : String
deriving DecidableEq, Repr

def intoResponse : AppError → Response
  | .config _ => ⟨500,"CONFIG_ERROR",genericInternal⟩
  | .unauthorized text => ⟨401,"UNAUTHORIZED",text⟩
  | .invalidSignature => ⟨401,"INVALID_SIGNATURE","Cryptographic signature mismatch or expired"⟩
  | .payloadTooLarge => ⟨413,"PAYLOAD_TOO_LARGE","Request body exceeds maximum allowed size"⟩
  | .badRequest text => ⟨400,"BAD_REQUEST",text⟩
  | .unsupportedProvider p => ⟨400,"UNSUPPORTED_PROVIDER","Unsupported provider: " ++ p⟩
  | .duplicateIdempotencyKey st =>
    ⟨409,"IDEMPOTENCY_CONFLICT","Event with key already exists in state: " ++ st⟩
  | .database _ => ⟨500,"DATABASE_ERROR",genericInternal⟩
  | .notFound text => ⟨404,"NOT_FOUND",text⟩
  | .conflict text => ⟨409,"CONFLICT",text⟩
  | .internal _ => ⟨500,"INTERNAL_ERROR",genericInternal⟩

theorem intoResponse_status (e : AppError) : e.intoResponse.status = e.statusCode := by
  cases e <;> rfl

theorem intoResponse_hides (e : AppError) (server : e.statusCode = 500) :
    e.intoResponse.error = genericInternal := by
  cases e <;> first | rfl | simp [statusCode] at server

end AppError
end AetherRelay
