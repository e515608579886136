import AetherRelay.Worker.Pass
import AetherRelay.System.Rows

namespace AetherRelay

-- The operations of the relay, each run to its end before the next one begins.
-- A pass may find the breaker map in any state: `breakers` puts it there.
inductive Operation where
  | createEndpoint (headers : HeaderMap) (req : CreateEndpointRequest) (inp : Input)
  | acceptEvent (endpointId : Uuid) (key : String) (rawBody : Bytes) (headers : String) (inp : Input)
  | runDispatchOnce (inp : Point → Input)
  | replayDlq (headers : HeaderMap) (dlqId : Uuid) (inp : Fin 4 → Input)
  | deleteEndpoint (headers : HeaderMap) (id : Uuid) (inp : Input)
  | breakers (map : Breakers)

namespace Operation

def perform (x : Externals) (cfg : AppConfig) (w : World) : Operation → World
  | .createEndpoint headers req inp => (AetherRelay.createEndpoint x cfg inp w headers req).1
  | .acceptEvent endpointId key rawBody headers inp => (AetherRelay.acceptEvent x inp w endpointId key rawBody headers).1
  | .runDispatchOnce inp => (AetherRelay.runDispatchOnce x (.fromAppConfig cfg) inp w).1
  | .replayDlq headers dlqId inp => (AetherRelay.replayDlq cfg inp w headers dlqId).1
  | .deleteEndpoint headers id inp => (AetherRelay.deleteEndpoint cfg inp w headers id).1
  | .breakers map => {w with breakers:=map}

def step (x : Externals) (cfg : AppConfig) (w : World) (op : Operation) : Option World := some (op.perform x cfg w)

def Clean : Operation → Prop
  | .createEndpoint _ _ inp | .acceptEvent _ _ _ _ inp | .deleteEndpoint _ _ inp => inp.fault = none
  | .runDispatchOnce inp => AetherRelay.Clean inp
  | .replayDlq _ _ inp => ∀ i, (inp i).fault = none
  | .breakers _ => True

end Operation

def World.new : World := ⟨.empty,fun _ => none,0,[]⟩

section
variable {x : Externals} {w : World}

theorem runDispatchOnce_supplied {cfg : DispatchLoopConfig} (inp : Point → Input) (supplied : w.Supplied x) :
    (runDispatchOnce x cfg inp w).1.Supplied x := by
  have path := runDispatchOnce_alone (x:=x) (w:=w) inp 0 (Prod.mk.eta (p:=runDispatchOnce x cfg inp w)).symm
  obtain ⟨inputs,reached⟩ := path
  have run := Transition.Run.check (fun _ _ => True) reached (.all fun _ _ => trivial)
  refine (run.preserves (fun s => s.1.Supplied x ∧ ∀ id ∈ s.2.pc.ids, Spent x s.1 id) ?_ ⟨supplied,?_⟩).1
  · rintro ⟨w,worker⟩ inp ⟨next,after⟩ ⟨old,known⟩ _ moved
    obtain ⟨supplied,_,inner⟩ := (workerStep_sound moved).supplied old known
    exact ⟨supplied,inner⟩
  · exact fun id member => by cases member

theorem ReplayDone.supplied (effect : ReplayDone w dlqId next) (old : w.Supplied x) : next.Supplied x := by
  cases effect with
  | refused => exact old
  | replayed found =>
    refine World.Supplied.log (old.keep rfl rfl fun id member => ?_) fun id member => by cases member
    have member := Db.ids_deleteAttempts (Db.ids_deleteLetter member)
    rwa [Db.ids_setStatus] at member

theorem Operation.supplied {cfg : AppConfig} {op : Operation} (clean : op.Clean) (old : w.Supplied x) :
    (op.perform x cfg w).Supplied x := by
  cases op with
  | createEndpoint headers req inp => exact ((createEndpoint_step x cfg inp w headers req).supplied old).1
  | acceptEvent endpointId key rawBody headers inp =>
    exact ((acceptEvent_step x inp w endpointId key rawBody headers).supplied old).1
  | runDispatchOnce inp => exact runDispatchOnce_supplied inp old
  | replayDlq headers dlqId inp => exact (replayDlq_clean cfg clean w headers dlqId).supplied old
  | deleteEndpoint headers id inp => exact ((deleteEndpoint_step cfg inp w headers id).supplied old).1
  | breakers map => exact old.keep rfl rfl fun id member => member

theorem World.new_supplied (x : Externals) : World.new.Supplied x :=
  ⟨fun _ member => (by cases member),fun _ member => (by cases member)⟩

end

namespace System
variable {x : Externals} {cfg : AppConfig} {s : State}

theorem pass_run (x : Externals) (cfg : AppConfig) (inp : Point → Input) (up : s.running = true) (idle : s.workers i = ⟨.idle,p⟩) :
    ∃ t, Transition.Reaches (step x cfg) s t ∧ t.running = true ∧
      t.world = (runDispatchOnce x (loopConfig cfg) inp s.world).1 ∧
      t.workers = Function.update s.workers i ⟨.finished (runDispatchOnce x (loopConfig cfg) inp s.world).2,p⟩ ∧
      t.replays = s.replays ∧ t.ingests = s.ingests := by
  have each : ∀ (v : World × Worker) input (v' : World × Worker) (u : State),
      (u.running = true ∧ u.world = v.1 ∧ u.workers = Function.update s.workers i v.2 ∧ u.replays = s.replays ∧
        u.ingests = s.ingests) → working x (loopConfig cfg) v input = some v' →
      ∃ a u', step x cfg u a = some u' ∧ u'.running = true ∧ u'.world = v'.1 ∧
        u'.workers = Function.update s.workers i v'.2 ∧ u'.replays = s.replays ∧ u'.ingests = s.ingests := by
    rintro ⟨w,worker⟩ input ⟨next,after⟩ u ⟨live,world,workers,replays,ingests⟩ moved
    have mine : u.workers i = worker := by rw [workers,Function.update_self]
    have moved : workerStep x (loopConfig cfg) input u.world (u.workers i) = some (next,after) := by
      rw [world,mine]
      exact moved
    refine ⟨.worker i input,{u with world:=next,workers:=Function.update u.workers i after,clock:=input.now},
      ?_,live,rfl,?_,replays,ingests⟩
    · simp only [step,live,if_true,serve,moved]
      rfl
    · exact (congrArg (Function.update · i after) workers).trans (Function.update_idem ..)
  have alone := runDispatchOnce_alone (x:=x) inp p
    (Prod.mk.eta (p:=runDispatchOnce x (loopConfig cfg) inp s.world)).symm
  obtain ⟨t,path,ended⟩ := alone.simulate _ each ⟨up,rfl,by rw [← idle,Function.update_eq_self],rfl,rfl⟩
  exact ⟨t,path,ended⟩

theorem replay_run (inp : Fin 4 → Input) (headers : HeaderMap) (dlqId : Uuid) (up : s.running = true) :
    ∃ t, Transition.Reaches (step x cfg) s t ∧ t.running = true ∧
      t.world = (replayDlq cfg inp s.world headers dlqId).1 ∧ t.workers = s.workers ∧
      t.replays = s.replays ++ [.done (replayDlq cfg inp s.world headers dlqId).2] ∧ t.ingests = s.ingests := by
  have each : ∀ (v : World × ReplayPc) input (v' : World × ReplayPc) (u : State),
      (u.running = true ∧ u.world = v.1 ∧ u.workers = s.workers ∧ u.replays = s.replays ++ [v.2] ∧
        u.ingests = s.ingests) → replaying v input = some v' →
      ∃ a u', step x cfg u a = some u' ∧ u'.running = true ∧ u'.world = v'.1 ∧ u'.workers = s.workers ∧
        u'.replays = s.replays ++ [v'.2] ∧ u'.ingests = s.ingests := by
    rintro ⟨w,pc⟩ input ⟨next,after⟩ u ⟨live,world,workers,replays,ingests⟩ moved
    have mine : u.replays[s.replays.length]? = some pc := by simp [replays]
    have moved : replayStep input u.world pc = some (next,after) := by
      rw [world]
      exact moved
    refine ⟨.replay s.replays.length input,
      {u with world:=next,replays:=u.replays.set s.replays.length after,clock:=input.now},?_,live,rfl,workers,?_,ingests⟩
    · simp only [step,live,if_true,serve,mine,Option.bind_eq_bind,Option.bind_some,moved]
      rfl
    · simp [replays]
  have first : step x cfg s (.startReplay headers dlqId (inp 0)) =
      some {s with replays:=s.replays ++ [startReplay cfg headers dlqId],clock:=(inp 0).now} := by
    simp only [step,up,if_true,serve]
  obtain ⟨t,path,ended⟩ := (replayDlq_alone cfg inp s.world headers dlqId).simulate
    (v:={s with replays:=s.replays ++ [startReplay cfg headers dlqId],clock:=(inp 0).now}) _ each
    ⟨up,rfl,rfl,rfl,rfl⟩
  exact ⟨t,.head _ first path,ended⟩

end System
end AetherRelay
