import AetherRelay.Lib.Transition
import AetherRelay.Db.Migrations
import AetherRelay.Api.IngestSteps
import AetherRelay.Api.Management
import AetherRelay.Api.Dlq
import AetherRelay.Worker.Steps

namespace AetherRelay.System

-- One database file and the process that serves it: any number of passes of
-- run_dispatch_once and the requests that have arrived, each at a point between
-- two of its atomic sections. The clock is the last instant a step was taken at.
structure State where
  world : World
  running : Bool
  clock : Nat
  workers : Nat → Worker
  replays : List ReplayPc
  ingests : List IngestPc

-- A request is addressed by the order of its arrival.
inductive Action where
  | createEndpoint (headers : HeaderMap) (req : CreateEndpointRequest) (inp : Input)
  | deleteEndpoint (headers : HeaderMap) (id : Uuid) (inp : Input)
  | accept (endpointId : Uuid) (key : String) (rawBody : Bytes) (headers : String) (inp : Input)
  | startIngest (req : IngestRequest) (inp : Input)
  | ingest (r : Nat) (inp : Input)
  | startReplay (headers : HeaderMap) (dlqId : Uuid) (inp : Input)
  | replay (r : Nat) (inp : Input)
  | worker (i : Nat) (inp : Input)
  | kill
  | shutdown
  | restart

def Action.input : Action → Option Input
  | .createEndpoint _ _ inp | .deleteEndpoint _ _ inp | .accept _ _ _ _ inp | .startIngest _ inp
  | .ingest _ inp | .startReplay _ _ inp | .replay _ inp | .worker _ inp => some inp
  | .kill | .shutdown | .restart => none

namespace Action

def live (a : Action) : Bool := (a.input.bind (·.fault)).isNone

def deletes : Action → Bool
  | .deleteEndpoint _ _ _ => true
  | _ => false

def replays : Action → Bool
  | .startReplay _ _ _ | .replay _ _ => true
  | _ => false

def ends : Action → Bool
  | .kill | .shutdown => true
  | _ => false

def single : Action → Bool
  | .worker i _ => i = 0
  | _ => true

theorem live_worker : (Action.worker i inp).live = true ↔ inp.fault = none := Option.isNone_iff_eq_none

def pass (i n : Nat) (answer : Answer) : List Action := List.replicate n (.worker i ⟨none,0,0,answer,0⟩)

end Action

def registerAndAccept : List Action :=
  [.createEndpoint [] ⟨"orders","generic","secret","https://hooks.example.com/in"⟩ ⟨none,0,0,.error "",0⟩,
   .accept "1" "key-1" [] "{}" ⟨none,0,0,.error "",0⟩]

def budgetOfOne : AppConfig := {AppConfig.default with worker := {AppConfig.default.worker with maxAttempts:=1}}

def loopConfig (cfg : AppConfig) : DispatchLoopConfig := .fromAppConfig cfg

-- run_migrations creates what is missing and touches no row.
def runMigrations (db : Db) : Db := db

-- That is what its statements come to, however many starts it takes: the process
-- that serves in the end has under it the whole schema and the store of before.
theorem runMigrations_started {f : Migrations.DbFile Migrations.Row}
    (sound : Migrations.schemaVersion ≤ f.userVersion → f.Complete) (held : f.rows = Migrations.fileRows db)
    (quiet : ∀ a ∈ actions, a.writes = false)
    (reached : Transition.exec Migrations.startStep ⟨f,.down⟩ actions = some t) (ready : t.pc = .ready) :
    t.file.Complete ∧ ∀ db', t.file.rows = Migrations.fileRows db' ↔ db' = runMigrations db := by
  obtain ⟨underway,_,rows⟩ := Migrations.starts_underway sound reached
  rw [Migrations.written_quiet quiet,held] at rows
  refine ⟨underway.stamped (underway.served ready),fun db' => ?_⟩
  rw [rows,Migrations.fileRows_injective.eq_iff]
  exact eq_comm

def terminate (cfg : AppConfig) (s : State) : State :=
  {s with
    world := {s.world with breakers:=fun _ => none}
    running := false
    workers := fun _ => .start (loopConfig cfg)
    replays := []
    ingests := []}

-- axum drains its connections before main returns; nobody waits for the loop.
def drained (s : State) : Bool := s.replays.all ReplayPc.answered && s.ingests.all IngestPc.answered

def serve (x : Externals) (cfg : AppConfig) (s : State) : Action → Option State
  | .createEndpoint headers req inp =>
    some {s with world:=(createEndpoint x cfg inp s.world headers req).1,clock:=inp.now}
  | .deleteEndpoint headers id inp =>
    some {s with world:=(deleteEndpoint cfg inp s.world headers id).1,clock:=inp.now}
  | .accept endpointId key rawBody headers inp =>
    some {s with world:=(acceptEvent x inp s.world endpointId key rawBody headers).1,clock:=inp.now}
  | .startIngest req inp =>
    let (next,pc) := AetherRelay.startIngest cfg s.world req
    some {s with world:=next,ingests:=s.ingests ++ [pc],clock:=inp.now}
  | .ingest r inp => do
    let (next,pc) ← ingestStep x inp s.world (← s.ingests[r]?)
    return {s with world:=next,ingests:=s.ingests.set r pc,clock:=inp.now}
  | .startReplay headers dlqId inp =>
    some {s with replays:=s.replays ++ [startReplay cfg headers dlqId],clock:=inp.now}
  | .replay r inp => do
    let (next,pc) ← replayStep inp s.world (← s.replays[r]?)
    return {s with world:=next,replays:=s.replays.set r pc,clock:=inp.now}
  | .worker i inp => do
    let (next,worker) ← workerStep x (loopConfig cfg) inp s.world (s.workers i)
    return {s with world:=next,workers:=Function.update s.workers i worker,clock:=inp.now}
  | .kill => some (terminate cfg s)
  | .shutdown => if drained s = true then some (terminate cfg s) else none
  | .restart => none

def step (x : Externals) (cfg : AppConfig) (s : State) (a : Action) : Option State :=
  if s.running = true then serve x cfg s a
  else match a with
    | .restart => some {s with running:=true,world:={s.world with db:=runMigrations s.world.db}}
    | _ => none

inductive Step (x : Externals) (cfg : AppConfig) : State → Action → State → Prop where
  | created (live : s.running = true) (effect : CreateStep x inp s.world req next) :
      Step x cfg s (.createEndpoint headers req inp) {s with world:=next,clock:=inp.now}
  | deleted (live : s.running = true) (effect : DeleteStep s.world endpointId next) :
      Step x cfg s (.deleteEndpoint headers endpointId inp) {s with world:=next,clock:=inp.now}
  | accepted (live : s.running = true)
      (effect : AcceptStep x inp s.world endpointId key rawBody headers next result) :
      Step x cfg s (.accept endpointId key rawBody headers inp) {s with world:=next,clock:=inp.now}
  | ingestStarted (live : s.running = true) (gates : AetherRelay.startIngest cfg s.world req = (next,pc)) :
      Step x cfg s (.startIngest req inp) {s with world:=next,ingests:=s.ingests ++ [pc],clock:=inp.now}
  | ingested (live : s.running = true) (present : s.ingests[r]? = some pc)
      (effect : IngestStep x inp s.world pc next after) :
      Step x cfg s (.ingest r inp) {s with world:=next,ingests:=s.ingests.set r after,clock:=inp.now}
  | replayStarted (live : s.running = true) :
      Step x cfg s (.startReplay headers dlqId inp)
        {s with replays:=s.replays ++ [startReplay cfg headers dlqId],clock:=inp.now}
  | replayed (live : s.running = true) (present : s.replays[r]? = some pc)
      (effect : ReplayStep inp s.world pc next after) :
      Step x cfg s (.replay r inp) {s with world:=next,replays:=s.replays.set r after,clock:=inp.now}
  | worked (live : s.running = true)
      (effect : WorkerStep x (loopConfig cfg) inp s.world (s.workers i) next after) :
      Step x cfg s (.worker i inp)
        {s with world:=next,workers:=Function.update s.workers i after,clock:=inp.now}
  | killed (live : s.running = true) : Step x cfg s .kill (terminate cfg s)
  | shutDown (live : s.running = true) (quiet : drained s = true) : Step x cfg s .shutdown (terminate cfg s)
  | restarted (down : s.running = false) :
      Step x cfg s .restart {s with running:=true,world:={s.world with db:=runMigrations s.world.db}}

theorem step_sound (moved : step x cfg s a = some t) : Step x cfg s a t := by
  unfold step at moved
  split at moved
  · rename_i live
    cases a with
    | createEndpoint headers req inp =>
      cases Option.some.inj moved; exact .created live (createEndpoint_step x cfg inp s.world headers req)
    | deleteEndpoint headers id inp =>
      cases Option.some.inj moved; exact .deleted live (deleteEndpoint_step cfg inp s.world headers id)
    | accept endpointId key rawBody headers inp =>
      cases Option.some.inj moved
      exact .accepted live (acceptEvent_step x inp s.world endpointId key rawBody headers)
    | startIngest req inp => cases Option.some.inj moved; exact .ingestStarted live rfl
    | ingest r inp =>
      obtain ⟨pc,present,moved⟩ := Option.bind_eq_some_iff.mp moved
      obtain ⟨⟨next,after⟩,inner,equal⟩ := Option.bind_eq_some_iff.mp moved
      cases equal
      exact .ingested live present (ingestStep_sound inner)
    | startReplay headers dlqId inp => cases Option.some.inj moved; exact .replayStarted live
    | replay r inp =>
      obtain ⟨pc,present,moved⟩ := Option.bind_eq_some_iff.mp moved
      obtain ⟨⟨next,after⟩,inner,equal⟩ := Option.bind_eq_some_iff.mp moved
      cases equal
      exact .replayed live present (replayStep_sound inner)
    | worker i inp =>
      obtain ⟨⟨next,after⟩,inner,equal⟩ := Option.bind_eq_some_iff.mp moved
      cases equal
      exact .worked live (workerStep_sound inner)
    | kill => cases Option.some.inj moved; exact .killed live
    | shutdown =>
      simp only [serve] at moved
      split at moved
      · rename_i quiet; cases moved; exact .shutDown live quiet
      · cases moved
    | restart => cases moved
  · rename_i down
    split at moved
    · cases moved; exact .restarted (by simpa using down)
    · cases moved

end AetherRelay.System
