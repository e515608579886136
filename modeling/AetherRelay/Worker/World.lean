import AetherRelay.Db.Store
import AetherRelay.Api.Ingest
import AetherRelay.Api.Endpoints
import AetherRelay.Worker.CircuitBreaker

namespace AetherRelay

inductive Answer where
  | response (status : StatusCode)
  | error (text : String)
deriving DecidableEq

namespace Answer

def success : Answer → Bool
  | .response status => status.isSuccess
  | .error _ => false

def statusCode : Answer → Option StatusCode
  | .response status => some status
  | .error _ => none

def errorMsg : Answer → Option String
  | .response status => if status.isSuccess then none else some s!"Downstream HTTP {status.code}"
  | .error text => some text

theorem any_isSuccess (a : Answer) : a.statusCode.any (·.isSuccess) = a.success := by
  cases a <;> rfl

theorem errorMsg_isSome (a : Answer) : a.errorMsg.isSome = !a.success := by
  cases a with
  | error text => rfl
  | response status => cases ok : status.isSuccess <;> simp [errorMsg,success,ok]

end Answer

-- What the outside supplies to one atomic section: the failure of its statement
-- or of the pool, the clocks, the client's answer and the random draw.
structure Input where
  fault : Option Fault
  now : Nat
  instant : Instant
  answer : Answer
  draw : Nat

-- Everything that leaves the process or that a client is told, newest first in
-- a history.
inductive Happening where
  | endpointCreated (row : EndpointRecord)
  | endpointDeleted (id : Uuid)
  | ingestReceived (req : IngestRequest)
  | accepted (eventId endpointId : Uuid) (idempotencyKey : String) (rawBody : Bytes) (headers : String)
  | rejected (endpointId : Uuid) (idempotencyKey : String) (error : AppError)
  | replayed (eventId : Uuid)
  | posted (eventId endpointId : Uuid) (url : String) (body : Bytes)
  | answered (eventId : Uuid) (answer : Answer)
  | dispatchMetric (endpointId : Uuid) (outcome : String)
  | slept (delay : Duration)
  | polled (interval : Duration)
deriving DecidableEq

-- The state all parties of one process share: the database file, the breaker
-- map, how many ids have been stored, and the history. An id that a failed
-- statement threw away was seen by nobody, so it may as well be drawn again.
structure World where
  db : Db
  breakers : Breakers
  drawn : Nat
  history : List Happening

namespace World

def log (w : World) (h : Happening) : World := {w with history:=h :: w.history}

@[simp] theorem log_db (w : World) (h : Happening) : (w.log h).db = w.db := rfl
@[simp] theorem log_breakers (w : World) (h : Happening) : (w.log h).breakers = w.breakers := rfl
@[simp] theorem log_drawn (w : World) (h : Happening) : (w.log h).drawn = w.drawn := rfl
@[simp] theorem log_history (w : World) (h : Happening) : (w.log h).history = h :: w.history := rfl

end World

-- One statement on one connection: the outside may make it fail, otherwise it
-- answers what the schema lets it answer.
def statement (inp : Input) (result : Except SqlError α) : Except AppError α :=
  match inp.fault with
  | some fault => .error (.database fault.error)
  | none => match result with
    | .ok value => .ok value
    | .error e => .error (.database e)

theorem statement_ok {inp : Input} {result : Except SqlError α} :
    statement inp result = .ok value ↔ inp.fault = none ∧ result = .ok value := by
  unfold statement
  cases inp.fault with
  | some fault => simp
  | none => cases result <;> simp

theorem statement_error {inp : Input} {result : Except SqlError α} :
    statement inp result = .error e ↔
      (∃ fault, inp.fault = some fault ∧ e = .database fault.error) ∨
      (inp.fault = none ∧ ∃ cause, result = .error cause ∧ e = .database cause) := by
  unfold statement
  cases inp.fault with
  | some fault => simp [eq_comm]
  | none => cases result <;> simp [eq_comm]

end AetherRelay
