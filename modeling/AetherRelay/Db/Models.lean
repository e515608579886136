import Mathlib.Data.String.Basic

namespace AetherRelay

-- A UUIDv7 as the lower-case text the relay stores. SQLite orders TEXT columns
-- by their bytes, which on this text is the order of `String`.
abbrev Uuid := String

abbrev Bytes := List UInt8

inductive EventStatus where
  | received
  | processing
  | delivered
  | failed
deriving DecidableEq, Repr

namespace EventStatus

def asStr : EventStatus → String
  | .received => "RECEIVED"
  | .processing => "PROCESSING"
  | .delivered => "DELIVERED"
  | .failed => "FAILED"

def fromStr (s : String) : Option EventStatus :=
  if s = "RECEIVED" then some .received
  else if s = "PROCESSING" then some .processing
  else if s = "DELIVERED" then some .delivered
  else if s = "FAILED" then some .failed
  else none

theorem fromStr_asStr (st : EventStatus) : fromStr st.asStr = some st := by
  cases st <;> decide

theorem asStr_injective : Function.Injective asStr := by
  intro a b same
  have both := fromStr_asStr a
  rw [same,fromStr_asStr] at both
  exact (Option.some.inj both).symm

def pending (st : EventStatus) : Bool := st = .received || st = .processing

end EventStatus

-- reqwest hands the dispatcher a parsed status line, so the code is in range.
structure StatusCode where
  code : Nat
  valid : 100 ≤ code ∧ code < 1000
deriving DecidableEq

namespace StatusCode

def ok : StatusCode := ⟨200,by decide⟩
def internalServerError : StatusCode := ⟨500,by decide⟩

def isSuccess (s : StatusCode) : Bool := 200 ≤ s.code && s.code < 300

end StatusCode

structure EndpointRecord where
  id : Uuid
  name : String
  provider : String
  secret : String
  targetUrl : String
  createdAt : Nat
deriving DecidableEq, Repr

structure IncomingEventRecord where
  id : Uuid
  endpointId : Uuid
  idempotencyKey : String
  rawBody : Bytes
  headers : String
  status : EventStatus
  createdAt : Nat
deriving DecidableEq, Repr

namespace IncomingEventRecord

def withStatus (e : IncomingEventRecord) (st : EventStatus) : IncomingEventRecord := {e with status:=st}

@[simp] theorem withStatus_id (e : IncomingEventRecord) (st : EventStatus) : (e.withStatus st).id = e.id := rfl
@[simp] theorem withStatus_endpointId (e : IncomingEventRecord) (st : EventStatus) :
    (e.withStatus st).endpointId = e.endpointId := rfl
@[simp] theorem withStatus_status (e : IncomingEventRecord) (st : EventStatus) : (e.withStatus st).status = st := rfl
@[simp] theorem withStatus_self (e : IncomingEventRecord) : e.withStatus e.status = e := rfl
@[simp] theorem withStatus_twice (e : IncomingEventRecord) (one two : EventStatus) :
    (e.withStatus one).withStatus two = e.withStatus two := rfl

end IncomingEventRecord

-- The column `response_body` is never written and is left out.
structure DeliveryAttempt where
  id : Uuid
  eventId : Uuid
  attemptNumber : Nat
  responseStatus : Option StatusCode
  errorMessage : Option String
  createdAt : Nat
deriving DecidableEq

structure DeadLetter where
  id : Uuid
  eventId : Uuid
  endpointId : Uuid
  errorReason : String
  lastAttemptStatus : Option StatusCode
  createdAt : Nat
deriving DecidableEq

end AetherRelay
