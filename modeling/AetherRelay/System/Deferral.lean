import AetherRelay.System.Sequential

namespace AetherRelay

inductive Defers (x : Externals) (cfg : DispatchLoopConfig) (row : IncomingEventRecord) :
    World → List (Point → Input) → World → Prop where
  | nil : Defers x cfg row w [] w
  | cons (head : w.db.nextReceived = some row) (passed : runDispatchOnce x cfg inp w = (next,.ok .deferred))
      (rest : Defers x cfg row next later last) : Defers x cfg row w (inp :: later) last

variable {x : Externals} {cfg : DispatchLoopConfig} {w : World}

def CircuitBreaker.OpenUntil (cb : CircuitBreaker) (til : Instant) : Prop := cb.state = .open ∧ cb.openUntil = some til

theorem CircuitBreaker.canAttempt_open {cb : CircuitBreaker} (opened : cb.OpenUntil til) (early : now < til) :
    cb.canAttempt now = (cb,false) := by
  have same : cb.observe now = cb := by simp [observe,opened.1,opened.2,Nat.not_le.mpr early]
  simp [canAttempt,same,opened.1]

theorem checkBreaker_open {inp : Input} (found : w.breakers endpointId = some cb) (opened : cb.OpenUntil til)
    (early : inp.instant < til) : checkBreaker cfg w inp endpointId = (w,true) := by
  have entry : w.breakers.entry cfg.circuitFailureThreshold cfg.circuitRecovery endpointId = cb := by
    simp [Breakers.entry,found]
  have same : Function.update w.breakers endpointId (some cb) = w.breakers :=
    found ▸ Function.update_eq_self endpointId w.breakers
  simp [checkBreaker,entry,CircuitBreaker.canAttempt_open opened early,same]

theorem defers_while_open {passes : List (Point → Input)} (head : w.db.nextReceived = some row)
    (fits : w.db.attemptCount row.id < 2^32) (found : w.breakers row.endpointId = some cb) (opened : cb.OpenUntil til)
    (early : ∀ inp ∈ passes, Clean inp ∧ (inp .checkBreaker).instant < til) :
    ∃ last, Defers x cfg row w passes last ∧ last.db = w.db ∧ last.breakers = w.breakers := by
  induction passes generalizing w with
  | nil => exact ⟨w,.nil,rfl,rfl⟩
  | cons inp later ih =>
    obtain ⟨⟨clean,before⟩,others⟩ := List.forall_mem_cons.mp early
    have asked : checkBreaker cfg w (inp .checkBreaker) row.endpointId = (w,true) := checkBreaker_open found opened before
    have passed : runDispatchOnce x cfg inp w = (w.log (.dispatchMetric row.endpointId "success"),.ok .deferred) := by
      rw [runDispatchOnce_refused clean.failsLate head fits (by rw [asked]),asked]
    obtain ⟨last,rest,db,breakers⟩ :=
      ih (w:=w.log (.dispatchMetric row.endpointId "success")) head fits found others
    exact ⟨last,.cons head passed rest,db,breakers⟩

-- A deferral leaves the queue as it was, so whoever was at its head is there for
-- the next pass, and for every pass until the circuit lets one of them through.
theorem deferred_head_stays (deferred : runDispatchOnce x cfg inp w = (next,.ok .deferred)) :
    ∃ row, w.db.nextReceived = some row ∧ next.db = w.db ∧
      (∀ e, e ≠ row.endpointId → next.breakers e = w.breakers e) ∧
      (∀ again : Input, again.fault = none →
        (claimNextEvent next again).map (·.2) = .ok (some (row.id,row.endpointId))) ∧
      ∀ passes cb til, next.breakers row.endpointId = some cb → cb.OpenUntil til →
        (∀ inp ∈ passes, Clean inp ∧ (inp .checkBreaker).instant < til) →
        ∃ last, Defers x cfg row next passes last ∧ last.db = w.db := by
  obtain ⟨row,head,fits,refused,rfl⟩ := runDispatchOnce_deferred deferred
  have stays : (checkBreaker cfg w (inp .checkBreaker) row.endpointId).1.db = w.db := rfl
  refine ⟨row,head,stays,fun e other => Function.update_of_ne other ..,fun again live => ?_,
    fun passes cb til found opened early => ?_⟩
  · simp only [claimNextEvent,World.log_db,stays,head,statement,live]
    rfl
  · generalize asked : (checkBreaker cfg w (inp .checkBreaker) row.endpointId).1.log
      (.dispatchMetric row.endpointId "success") = next at found
    have same : next.db = w.db := by rw [← asked,World.log_db,stays]
    obtain ⟨last,path,db,_⟩ := defers_while_open (same ▸ head) (same ▸ fits) found opened early
    exact ⟨last,path,db.trans same⟩

-- What a fair queue would do: after a deferral the next pass takes another event
-- when one of a healthy endpoint is waiting.
def MakesRoom (x : Externals) (cfg : DispatchLoopConfig) (w : World) (inp again : Point → Input) : Prop :=
  ∀ head other healthy opened, w.db.nextReceived = some head → (runDispatchOnce x cfg inp w).2 = .ok .deferred →
    other ∈ w.db.incomingEvents.rows → other.status = .received → other.endpointId ≠ head.endpointId →
    w.breakers other.endpointId = some healthy → healthy.state = .closed →
    (runDispatchOnce x cfg inp w).1.breakers head.endpointId = some opened → opened.state = .open →
    (claimNextEvent (runDispatchOnce x cfg inp w).1 (again .claim)).map (fun claimed => claimed.2.map (·.1)) ≠
      .ok (some head.id)

-- Two endpoints. The first delivery of the one has succeeded, that of the other
-- has failed and opened its circuit, and then an event for the healthy one came in.
def hairTrigger : AppConfig :=
  {AppConfig.default with worker := {AppConfig.default.worker with circuitFailureThreshold:=1}}

def still : Input := ⟨none,0,0,.error "connection refused",0⟩

def oneOpenCircuit : List Operation :=
  [.createEndpoint [] ⟨"orders","generic","secret","https://hooks.example.com/in"⟩ still,
   .createEndpoint [] ⟨"refunds","generic","secret","https://hooks.example.com/in"⟩ still,
   .acceptEvent "11" "key-1" [] "{}" still,
   .runDispatchOnce fun _ => {still with answer:=.response .ok},
   .acceptEvent "1" "key-1" [] "{}" still,
   .runDispatchOnce fun _ => still,
   .acceptEvent "11" "key-2" [] "{}" still]

theorem oneOpenCircuit_clean (step : World → Operation → Option World) :
    Transition.EachStep step (fun _ op => op.Clean) World.new oneOpenCircuit :=
  .all (by simp [oneOpenCircuit,still,Operation.Clean,Clean])

theorem deferred_head_stays_reached :
    ∃ w next row, Transition.Run (Operation.step .tabletop hairTrigger) (fun _ op => op.Clean) World.new oneOpenCircuit w ∧
      runDispatchOnce .tabletop (.fromAppConfig hairTrigger) (fun _ => still) w = (next,.ok .deferred) ∧
      w.db.nextReceived = some row ∧ next.db = w.db := by
  have outcome : (Transition.exec (Operation.step .tabletop hairTrigger) World.new oneOpenCircuit).map (fun w =>
      (runDispatchOnce .tabletop (.fromAppConfig hairTrigger) (fun _ => still) w).2) = some (.ok .deferred) := by
    decide +kernel
  obtain ⟨w,reached,deferred⟩ := Option.map_eq_some_iff.mp outcome
  have passed : runDispatchOnce .tabletop (.fromAppConfig hairTrigger) (fun _ => still) w =
      ((runDispatchOnce .tabletop (.fromAppConfig hairTrigger) (fun _ => still) w).1,.ok .deferred) :=
    Prod.ext rfl deferred
  obtain ⟨row,head,db,_⟩ := deferred_head_stays passed
  exact ⟨w,_,row,Transition.Run.check _ reached (oneOpenCircuit_clean _),passed,head,db⟩

theorem open_circuit_blocks_others :
    ∃ w, Transition.Run (Operation.step .tabletop hairTrigger) (fun _ op => op.Clean) World.new oneOpenCircuit w ∧
      ¬MakesRoom .tabletop (.fromAppConfig hairTrigger) w (fun _ => still) (fun _ => still) := by
  have before : (Transition.exec (Operation.step .tabletop hairTrigger) World.new oneOpenCircuit).map (fun w =>
      (w.db.nextReceived.map (fun e => (e.id,e.endpointId)),
        (w.db.event "1111111").map (fun e => (e.status,e.endpointId)),(w.breakers "11").map (·.state))) =
      some (some ("11111","1"),some (.received,"11"),some .closed) := by decide +kernel
  have after : (Transition.exec (Operation.step .tabletop hairTrigger) World.new oneOpenCircuit).map (fun w =>
      ((runDispatchOnce .tabletop (.fromAppConfig hairTrigger) (fun _ => still) w).2,
        ((runDispatchOnce .tabletop (.fromAppConfig hairTrigger) (fun _ => still) w).1.breakers "1").map (·.state),
        (claimNextEvent (runDispatchOnce .tabletop (.fromAppConfig hairTrigger) (fun _ => still) w).1 still).map
          (fun claimed => claimed.2.map (·.1)))) =
      some (.ok .deferred,some .open,.ok (some "11111")) := by decide +kernel
  obtain ⟨w,reached,facts⟩ := Option.map_eq_some_iff.mp before
  rw [reached] at after
  simp only [Option.map_some,Option.some.injEq,Prod.mk.injEq] at facts after
  obtain ⟨queue,waiting,closed⟩ := facts
  obtain ⟨deferred,opened,again⟩ := after
  obtain ⟨head,next,names⟩ := Option.map_eq_some_iff.mp queue
  obtain ⟨other,found,parent⟩ := Option.map_eq_some_iff.mp waiting
  obtain ⟨healthy,entry,state⟩ := Option.map_eq_some_iff.mp closed
  obtain ⟨broken,kept,state'⟩ := Option.map_eq_some_iff.mp opened
  obtain ⟨id,target⟩ := Prod.mk.inj names
  obtain ⟨received,child⟩ := Prod.mk.inj parent
  refine ⟨w,Transition.Run.check _ reached (oneOpenCircuit_clean _),fun fair => ?_⟩
  refine fair head other healthy broken next deferred (Db.event_mem found).1 received ?_ (child ▸ entry) state
    (target ▸ kept) state' ?_
  · rw [child,target]
    decide
  · rw [id]
    exact again

end AetherRelay
