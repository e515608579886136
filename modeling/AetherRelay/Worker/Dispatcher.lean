import AetherRelay.Worker.World

namespace AetherRelay

structure DispatchResult where
  success : Bool
  statusCode : Option StatusCode
  error : Option String
  deferred : Bool
deriving DecidableEq

-- The local variables of dispatch_single_event once its three reads are done.
structure Delivery where
  eventId : Uuid
  endpointId : Uuid
  targetUrl : String
  rawBody : Bytes
  attemptCount : Nat
deriving DecidableEq

-- attempt_count + 1 in u32
def Delivery.attemptNum (d : Delivery) : Nat := (d.attemptCount+1) % 2^32

def Delivery.attempt (d : Delivery) (answer : Answer) (id : Uuid) (now : Nat) : DeliveryAttempt :=
  ⟨id,d.eventId,d.attemptNum,answer.statusCode,answer.errorMsg,now⟩

def Delivery.letter (d : Delivery) (answer : Answer) (id : Uuid) (now : Nat) : DeadLetter :=
  ⟨id,d.eventId,d.endpointId,answer.errorMsg.getD "Max attempts exceeded",answer.statusCode,now⟩

def DispatchResult.withheld : DispatchResult := ⟨false,none,some "Circuit breaker OPEN",true⟩
def DispatchResult.of (answer : Answer) : DispatchResult :=
  ⟨answer.success,answer.statusCode,answer.errorMsg,false⟩

section statements

def selectEvent (w : World) (inp : Input) (id : Uuid) : Except AppError (Uuid × Bytes) :=
  statement inp <| match w.db.event id with
    | some row => .ok (row.endpointId,row.rawBody)
    | none => .error .queryReturnedNoRows

def selectTarget (w : World) (inp : Input) (endpointId : Uuid) : Except AppError String :=
  statement inp <| match w.db.endpoint endpointId with
    | some row => .ok row.targetUrl
    | none => .error .queryReturnedNoRows

-- The column is read into a u32.
def countAttempts (w : World) (inp : Input) (id : Uuid) : Except AppError Nat :=
  statement inp <| if w.db.attemptCount id < 2^32 then .ok (w.db.attemptCount id)
    else .error (.integralValueOutOfRange 0 (w.db.attemptCount id))

def requeueEvent (w : World) (inp : Input) (id : Uuid) : Except AppError World :=
  statement inp (.ok {w with db:=w.db.setStatus id .received})

def insertAttempt (x : Externals) (w : World) (inp : Input) (d : Delivery) (answer : Answer) :
    Except AppError World :=
  statement inp <| (w.db.insertAttempt (d.attempt answer (x.nowV7 w.drawn) inp.now)).map
    fun db => {w with db:=db,drawn:=w.drawn+1}

def settledStatus (cfg : DispatchLoopConfig) (d : Delivery) (answer : Answer) : EventStatus :=
  if answer.success then .delivered
  else if cfg.maxAttempts.toNat ≤ d.attemptNum then .failed
  else .received

def updateStatus (cfg : DispatchLoopConfig) (w : World) (inp : Input) (d : Delivery) (answer : Answer) :
    Except AppError World :=
  statement inp (.ok {w with db:=w.db.setStatus d.eventId (settledStatus cfg d answer)})

def insertDeadLetter (x : Externals) (w : World) (inp : Input) (d : Delivery) (answer : Answer) (now : Nat) :
    Except AppError World :=
  statement inp <| (w.db.replaceLetter (d.letter answer (x.nowV7 w.drawn) now)).map
    fun db => {w with db:=db,drawn:=w.drawn+1}

-- The breaker-lock section before the request: the new breaker and !can_attempt().
def checkBreaker (cfg : DispatchLoopConfig) (w : World) (inp : Input) (endpointId : Uuid) : World × Bool :=
  let breaker := w.breakers.entry cfg.circuitFailureThreshold cfg.circuitRecovery endpointId
  let (next,admitted) := breaker.canAttempt inp.instant
  ({w with breakers:=Function.update w.breakers endpointId (some next)},!admitted)

def updateBreaker (w : World) (inp : Input) (endpointId : Uuid) (answer : Answer) : World :=
  {w with breakers:=w.breakers.record endpointId answer.success inp.instant}

end statements

-- Where a running dispatch_single_event stands: each case is the next atomic
-- section it performs. `mode` remembers in which state the breaker admitted it.
inductive DispatchPc where
  | selectEvent (eventId : Uuid)
  | selectEndpoint (eventId endpointId : Uuid) (rawBody : Bytes)
  | countAttempts (eventId endpointId : Uuid) (rawBody : Bytes) (targetUrl : String)
  | checkBreaker (d : Delivery)
  | requeueDeferred (d : Delivery)
  | send (d : Delivery) (mode : CircuitState)
  | await (d : Delivery) (mode : CircuitState)
  | updateBreaker (d : Delivery) (mode : CircuitState) (answer : Answer)
  | insertAttempt (d : Delivery) (answer : Answer)
  | updateStatus (d : Delivery) (answer : Answer) (now : Nat)
  | insertDeadLetter (d : Delivery) (answer : Answer) (now : Nat)
  | done (eventId : Uuid) (result : Except AppError DispatchResult)

namespace DispatchPc

def eventId : DispatchPc → Uuid
  | .selectEvent id | .selectEndpoint id _ _ | .countAttempts id _ _ _ | .done id _ => id
  | .checkBreaker d | .requeueDeferred d | .send d _ | .await d _ | .updateBreaker d _ _
  | .insertAttempt d _ | .updateStatus d _ _ | .insertDeadLetter d _ _ => d.eventId

-- One atomic section. An error is what `?` hands out of the function.
def perform (x : Externals) (cfg : DispatchLoopConfig) (inp : Input) (w : World) :
    DispatchPc → Except AppError (World × DispatchPc)
  | .selectEvent id => (AetherRelay.selectEvent w inp id).map fun (endpointId,rawBody) =>
      (w,.selectEndpoint id endpointId rawBody)
  | .selectEndpoint id endpointId rawBody => (selectTarget w inp endpointId).map fun targetUrl =>
      (w,.countAttempts id endpointId rawBody targetUrl)
  | .countAttempts id endpointId rawBody targetUrl => (AetherRelay.countAttempts w inp id).map fun count =>
      (w,.checkBreaker ⟨id,endpointId,targetUrl,rawBody,count⟩)
  | .checkBreaker d =>
      let (next,circuitOpen) := AetherRelay.checkBreaker cfg w inp d.endpointId
      let breaker := w.breakers.entry cfg.circuitFailureThreshold cfg.circuitRecovery d.endpointId
      .ok (next,if circuitOpen then .requeueDeferred d else .send d (breaker.observe inp.instant).state)
  | .requeueDeferred d => (requeueEvent w inp d.eventId).map fun next =>
      (next,.done d.eventId (.ok .withheld))
  | .send d mode => .ok (w.log (.posted d.eventId d.endpointId d.targetUrl d.rawBody),.await d mode)
  | .await d mode => .ok (w.log (.answered d.eventId inp.answer),.updateBreaker d mode inp.answer)
  | .updateBreaker d _ answer => .ok (AetherRelay.updateBreaker w inp d.endpointId answer,.insertAttempt d answer)
  | .insertAttempt d answer => (AetherRelay.insertAttempt x w inp d answer).map fun next =>
      (next,.updateStatus d answer inp.now)
  | .updateStatus d answer now => (AetherRelay.updateStatus cfg w inp d answer).map fun next =>
      (next,if settledStatus cfg d answer = .failed then .insertDeadLetter d answer now
        else .done d.eventId (.ok (.of answer)))
  | .insertDeadLetter d answer now => (AetherRelay.insertDeadLetter x w inp d answer now).map fun next =>
      (next,.done d.eventId (.ok (.of answer)))
  | .done id result => .ok (w,.done id result)

end DispatchPc

def dispatchStep (x : Externals) (cfg : DispatchLoopConfig) (inp : Input) (w : World) (pc : DispatchPc) :
    Option (World × DispatchPc) :=
  match pc with
  | .done _ _ => none
  | _ => match pc.perform x cfg inp w with
    | .ok next => some next
    | .error e => some (w,.done pc.eventId (.error e))

inductive Point where
  | claim
  | selectEvent
  | selectEndpoint
  | countAttempts
  | checkBreaker
  | requeueDeferred
  | await
  | updateBreaker
  | insertAttempt
  | updateStatus
  | insertDeadLetter
  | requeueErrored
deriving DecidableEq

-- The recording block. Its statements commit one by one, so an error leaves
-- behind what was already written.
def recordDelivery (x : Externals) (cfg : DispatchLoopConfig) (inp : Point → Input) (w : World)
    (d : Delivery) (answer : Answer) : World × Except AppError Unit :=
  match insertAttempt x w (inp .insertAttempt) d answer with
  | .error e => (w,.error e)
  | .ok stored =>
    match updateStatus cfg stored (inp .updateStatus) d answer with
    | .error e => (stored,.error e)
    | .ok settled =>
      if settledStatus cfg d answer = .failed then
        match insertDeadLetter x settled (inp .insertDeadLetter) d answer (inp .insertAttempt).now with
        | .error e => (settled,.error e)
        | .ok parked => (parked,.ok ())
      else (settled,.ok ())

def fetchDelivery (inp : Point → Input) (w : World) (eventId : Uuid) : Except AppError Delivery :=
  match selectEvent w (inp .selectEvent) eventId with
  | .error e => .error e
  | .ok (endpointId,rawBody) =>
    match selectTarget w (inp .selectEndpoint) endpointId with
    | .error e => .error e
    | .ok targetUrl =>
      match countAttempts w (inp .countAttempts) eventId with
      | .error e => .error e
      | .ok attemptCount => .ok ⟨eventId,endpointId,targetUrl,rawBody,attemptCount⟩

def dispatchSingleEvent (x : Externals) (cfg : DispatchLoopConfig) (inp : Point → Input) (w : World)
    (eventId : Uuid) : World × Except AppError DispatchResult :=
  match fetchDelivery inp w eventId with
  | .error e => (w,.error e)
  | .ok d =>
    let (checked,circuitOpen) := checkBreaker cfg w (inp .checkBreaker) d.endpointId
    if circuitOpen then
      match requeueEvent checked (inp .requeueDeferred) eventId with
      | .error e => (checked,.error e)
      | .ok requeued => (requeued,.ok .withheld)
    else
      let answer := (inp .await).answer
      let sent := checked.log (.posted eventId d.endpointId d.targetUrl d.rawBody)
      let answered := sent.log (.answered eventId answer)
      let updated := updateBreaker answered (inp .updateBreaker) d.endpointId answer
      match recordDelivery x cfg inp updated d answer with
      | (recorded,.error e) => (recorded,.error e)
      | (recorded,.ok ()) => (recorded,.ok (.of answer))

end AetherRelay
