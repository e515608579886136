import AetherRelay.Worker.Backoff
import AetherRelay.Worker.Dispatcher

namespace AetherRelay

inductive DispatchOutcome where
  | idle
  | settled
  | deferred
deriving DecidableEq, Repr

-- One BEGIN IMMEDIATE transaction: a failure of any of its parts undoes it.
def claimNextEvent (w : World) (inp : Input) : Except AppError (World × Option (Uuid × Uuid)) :=
  statement inp <| .ok <| match w.db.nextReceived with
    | none => (w,none)
    | some row => ({w with db:=w.db.setStatus row.id .processing},some (row.id,row.endpointId))

def outcomeLabel : Except AppError DispatchResult → String
  | .ok _ => "success"
  | .error _ => "failure"

def runDispatchOnce (x : Externals) (cfg : DispatchLoopConfig) (inp : Point → Input) (w : World) :
    World × Except AppError DispatchOutcome :=
  match claimNextEvent w (inp .claim) with
  | .error e => (w,.error e)
  | .ok (claimed,none) => (claimed,.ok .idle)
  | .ok (claimed,some (eventId,endpointId)) =>
    let (dispatched,outcome) := dispatchSingleEvent x cfg inp claimed eventId
    let recorded := dispatched.log (.dispatchMetric endpointId (outcomeLabel outcome))
    match outcome with
    | .ok result => (recorded,.ok (if result.deferred then .deferred else .settled))
    | .error e =>
      match requeueEvent recorded (inp .requeueErrored) eventId with
      | .ok requeued => (requeued,.error e)
      | .error _ => (recorded,.error e)

-- Where a worker of run_dispatch_loop stands between two atomic sections.
inductive WorkerPc where
  | idle
  | dispatching (eventId endpointId : Uuid) (pc : DispatchPc)
  | requeueing (eventId : Uuid) (error : AppError)
  | finished (result : Except AppError DispatchOutcome)

structure Worker where
  pc : WorkerPc
  prevSleep : Duration

def Worker.start (cfg : DispatchLoopConfig) : Worker := ⟨.idle,cfg.backoffBase⟩

def workerStep (x : Externals) (cfg : DispatchLoopConfig) (inp : Input) (w : World) (worker : Worker) :
    Option (World × Worker) :=
  match worker.pc with
  | .idle =>
    match claimNextEvent w inp with
    | .error e => some (w,{worker with pc:=.finished (.error e)})
    | .ok (claimed,none) => some (claimed,{worker with pc:=.finished (.ok .idle)})
    | .ok (claimed,some (eventId,endpointId)) =>
      some (claimed,{worker with pc:=.dispatching eventId endpointId (.selectEvent eventId)})
  | .dispatching eventId endpointId (.done _ outcome) =>
    let recorded := w.log (.dispatchMetric endpointId (outcomeLabel outcome))
    match outcome with
    | .ok result =>
      some (recorded,{worker with pc:=.finished (.ok (if result.deferred then .deferred else .settled))})
    | .error e => some (recorded,{worker with pc:=.requeueing eventId e})
  | .dispatching eventId endpointId pc =>
    (dispatchStep x cfg inp w pc).map fun (next,pc) => (next,{worker with pc:=.dispatching eventId endpointId pc})
  | .requeueing eventId e =>
    match requeueEvent w inp eventId with
    | .ok requeued => some (requeued,{worker with pc:=.finished (.error e)})
    | .error _ => some (w,{worker with pc:=.finished (.error e)})
  | .finished (.ok .settled) => some (w,⟨.idle,cfg.backoffBase⟩)
  | .finished (.ok .idle) => some (w.log (.polled cfg.pollInterval),{worker with pc:=.idle})
  | .finished (.ok .deferred) | .finished (.error _) =>
    (decorrelatedJitter cfg.backoffBase cfg.backoffCap worker.prevSleep inp.draw).map fun delay =>
      (w.log (.slept delay),⟨.idle,delay⟩)

end AetherRelay
