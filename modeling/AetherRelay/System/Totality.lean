import AetherRelay.Lib.Watch
import AetherRelay.System.Rows
import AetherRelay.Worker.BreakerHistory

namespace AetherRelay
open CircuitBreaker (failures tripsAt)

structure CircuitBreaker.Tallied (threshold : UInt32) (recovery : Duration) (past : List (Bool × Instant))
    (cb : CircuitBreaker) : Prop where
  bound : cb.failureThreshold = threshold
  window : cb.recoveryTimeout = recovery
  count : cb.failureCount.toNat = failures past
  closed : failures past < tripsAt threshold → cb.state = .closed

namespace CircuitBreaker
variable {threshold : UInt32} {recovery : Duration} {past : List (Bool × Instant)} {cb : CircuitBreaker}

theorem new_tallied : Tallied threshold recovery [] (.new threshold recovery) := ⟨rfl,rfl,rfl,fun _ => rfl⟩

theorem Tallied.observe (tallied : Tallied threshold recovery past cb) (now : Instant) :
    Tallied threshold recovery past (cb.observe now) := by
  obtain ⟨bound,window,count,closed⟩ := tallied
  unfold CircuitBreaker.observe
  split
  · rename_i shut deadline
    split
    · exact ⟨bound,window,count,fun few => absurd (shut.symm.trans (closed few)) (by decide)⟩
    · exact ⟨bound,window,count,closed⟩
  · exact ⟨bound,window,count,closed⟩

theorem Tallied.canAttempt (tallied : Tallied threshold recovery past cb) (now : Instant) :
    Tallied threshold recovery past (cb.canAttempt now).1 := by
  obtain ⟨bound,window,count,closed⟩ := tallied.observe now
  unfold CircuitBreaker.canAttempt
  dsimp only
  split
  · exact ⟨bound,window,count,closed⟩
  · split <;> exact ⟨bound,window,count,closed⟩
  · exact ⟨bound,window,count,closed⟩

theorem Tallied.record (tallied : Tallied threshold recovery past cb)
    (room : success = false → failures past + 1 < 2^32) :
    Tallied threshold recovery ((success,now) :: past) (cb.record success now) := by
  obtain ⟨bound,window,count,closed⟩ := tallied
  cases success with
  | true => exact ⟨bound,window,rfl,fun _ => rfl⟩
  | false =>
    have counted := failureCount_next count (room rfl)
    have decided := trips_exact count bound (room rfl) closed
    unfold CircuitBreaker.record CircuitBreaker.recordFailure
    by_cases many : tripsAt threshold ≤ failures past + 1
    · simp only [Bool.false_eq_true,if_false,if_pos (decided.mpr many)]
      exact ⟨bound,window,counted,fun few => absurd many (Nat.not_le.mpr few)⟩
    · simp only [Bool.false_eq_true,if_false,if_neg (mt decided.mp many)]
      refine ⟨bound,window,counted,fun _ => closed ?_⟩
      omega

end CircuitBreaker

namespace System

def recording (s : State) : Action → Option (Uuid × Bool × Instant)
  | .worker i inp =>
    match (s.workers i).pc with
    | .dispatching _ _ (.updateBreaker d _ answer) =>
      (s.world.breakers d.endpointId).map fun _ => (d.endpointId,answer.success,inp.instant)
    | _ => none
  | _ => none

abbrev Outcomes := Uuid → List (Bool × Instant)

def noteOutcome (s : State) (seen : Outcomes) (a : Action) (_ : State) : Outcomes :=
  if a.ends = true then fun _ => []
  else match recording s a with
    | some (endpointId,success,instant) =>
      Function.update seen endpointId ((success,instant) :: seen endpointId)
    | none => seen

abbrev Scored := Transition.Watched State Outcomes

def scoreStep (x : Externals) (cfg : AppConfig) : Scored → Action → Option Scored :=
  Transition.watch (step x cfg) noteOutcome

def Scored.start (b : State) : Scored := ⟨b,fun _ => []⟩

-- An Instant counts signed 64-bit seconds.
def instantLimit : Nat := 2^63 * 1000000000

-- The delivery for which a step computes its attempt number: the breaker has
-- admitted the pass, and nothing is awaited in between.
def numbering (cfg : AppConfig) (s : State) : Action → Option Delivery
  | .worker i inp =>
    match (s.workers i).pc with
    | .dispatching _ _ (.checkBreaker d) =>
      if (checkBreaker (loopConfig cfg) s.world inp d.endpointId).2 = false then some d else none
    | _ => none
  | _ => none

structure Total (cfg : AppConfig) (s : State) (a : Action) : Prop where
  failureCount : ∀ endpointId instant cb, recording s a = some (endpointId,false,instant) →
    s.world.breakers endpointId = some cb → cb.failureCount.toNat + 1 < 2^32
  openUntil : ∀ endpointId instant cb, recording s a = some (endpointId,false,instant) →
    s.world.breakers endpointId = some cb → (cb.failureThreshold ≤ cb.failureCount+1 ∨ cb.state = .halfOpen) →
      instant + cb.recoveryTimeout < instantLimit
  attemptNum : ∀ d, numbering cfg s a = some d → d.attemptCount + 1 < 2^32
  tripled : ∀ i, saturatingMul (asMillis (s.workers i).prevSleep) 3 < 2^64
  range : ∀ i, asMillis (loopConfig cfg).backoffBase ≤
    max (saturatingMul (asMillis (s.workers i).prevSleep) 3) (asMillis (loopConfig cfg).backoffBase)

-- The clock can hold the recovery time of every circuit that trips, no endpoint has
-- failed 2^32 times in a row, and no pass that may send has counted 2^32-1 attempts.
structure Moderate (cfg : AppConfig) (s : Scored) (a : Action) : Prop where
  streak : ∀ endpointId instant, recording s.state a = some (endpointId,false,instant) →
    failures (s.notes endpointId) + 1 < 2^32
  clock : ∀ endpointId instant, recording s.state a = some (endpointId,false,instant) →
    tripsAt cfg.worker.circuitFailureThreshold ≤ failures (s.notes endpointId) + 1 →
      instant + fromSecs cfg.worker.circuitRecoveryTimeoutSecs.toNat < instantLimit
  counted : ∀ d, numbering cfg s.state a = some d → d.attemptCount ≠ 2^32-1

structure Tallying (cfg : AppConfig) (s : Scored) : Prop where
  breakers : ∀ endpointId cb, s.state.world.breakers endpointId = some cb →
    cb.Tallied cfg.worker.circuitFailureThreshold (fromSecs cfg.worker.circuitRecoveryTimeoutSecs.toNat)
      (s.notes endpointId)
  absent : ∀ endpointId, s.state.world.breakers endpointId = none → s.notes endpointId = []
  counted : ∀ i claimed parent d, (s.state.workers i).pc = .dispatching claimed parent (.checkBreaker d) →
    d.attemptCount < 2^32

inductive BreakerStep (loop : DispatchLoopConfig) (s : State) (a : Action) : Breakers → Prop where
  | same (goes : a.ends = false) (quiet : recording s a = none) : BreakerStep loop s a s.world.breakers
  | asked (goes : a.ends = false) (quiet : recording s a = none) : BreakerStep loop s a
      (Function.update s.world.breakers e (some ((s.world.breakers.entry loop.circuitFailureThreshold
        loop.circuitRecovery e).canAttempt now).1))
  | recorded (goes : a.ends = false) (call : recording s a = some (e,success,now)) (found : s.world.breakers e = some cb) :
      BreakerStep loop s a (Function.update s.world.breakers e (some (cb.record success now)))
  | ended (ends : a.ends = true) : BreakerStep loop s a fun _ => none

theorem WorkerStep.breakers {next : World} (effect : WorkerStep x loop inp s.world worker next after)
    (mine : s.workers i = worker) : BreakerStep loop s (.worker i inp) next.breakers := by
  have quiet : (∀ claimed parent d mode answer, worker.pc ≠ .dispatching claimed parent (.updateBreaker d mode answer)) →
      recording s (.worker i inp) = none := by
    intro other
    simp only [recording,mine]
  cases effect with
  | dispatch moved =>
    cases moved with
    | withheld refused => exact .asked rfl (quiet (by simp))
    | admitted open' => exact .asked rfl (quiet (by simp))
    | updateBreaker =>
      rename_i p d mode answer
      have call : recording s (.worker i inp) =
          (s.world.breakers d.endpointId).map fun _ => (d.endpointId,answer.success,inp.instant) := by
        simp only [recording,mine]
      cases found : s.world.breakers d.endpointId with
      | none =>
        rw [found] at call
        simp only [AetherRelay.updateBreaker,Breakers.record,found]
        exact .same rfl call
      | some cb =>
        rw [found] at call
        simp only [AetherRelay.updateBreaker,Breakers.record,found]
        exact .recorded rfl call found
    | failed cause =>
      refine .same rfl (quiet fun claimed parent d mode answer here => ?_)
      cases here
      cases cause
    | _ => exact .same rfl (quiet (by simp))
  | _ => exact .same rfl (quiet (by simp))

theorem Step.breakers (moved : Step x cfg s a t) : BreakerStep (loopConfig cfg) s a t.world.breakers := by
  cases moved with
  | created live effect => cases effect <;> exact .same rfl rfl
  | deleted live effect => cases effect <;> exact .same rfl rfl
  | accepted live effect => cases effect <;> exact .same rfl rfl
  | ingestStarted live gates => cases gates; exact .same rfl rfl
  | ingested live present effect =>
    cases effect with
    | accepted inner => cases inner <;> exact .same rfl rfl
    | _ => exact .same rfl rfl
  | replayStarted live => exact .same rfl rfl
  | replayed live present effect => cases effect <;> exact .same rfl rfl
  | worked live effect => exact WorkerStep.breakers effect rfl
  | killed live => exact .ended rfl
  | shutDown live quiet => exact .ended rfl
  | restarted down => exact .same rfl rfl

theorem recording_found (call : recording s a = some (e,success,now)) : ∃ cb, s.world.breakers e = some cb := by
  unfold recording at call
  split at call
  · split at call
    · obtain ⟨cb,found,same⟩ := Option.map_eq_some_iff.mp call
      cases same
      exact ⟨cb,found⟩
    · cases call
  · cases call

theorem numbering_parts (counts : numbering cfg s a = some d) :
    ∃ i claimed parent, (s.workers i).pc = .dispatching claimed parent (.checkBreaker d) := by
  unfold numbering at counts
  split at counts
  · split at counts
    · rename_i here
      split at counts
      · cases counts
        exact ⟨_,_,_,here⟩
      · cases counts
    · cases counts
  · cases counts

theorem Tallying.total_exact (tallying : Tallying cfg s) : Total cfg s.state a ↔ Moderate cfg s a := by
  constructor
  · intro total
    have streak : ∀ e now, recording s.state a = some (e,false,now) → failures (s.notes e) + 1 < 2^32 := by
      intro e now call
      obtain ⟨cb,found⟩ := recording_found call
      rw [← (tallying.breakers e cb found).count]
      exact total.failureCount e now cb call found
    refine ⟨streak,fun e now call trips => ?_,fun d counts => ?_⟩
    · obtain ⟨cb,found⟩ := recording_found call
      obtain ⟨bound,window,count,closed⟩ := tallying.breakers e cb found
      have tripped := (CircuitBreaker.trips_exact count bound (streak e now call) closed).mpr trips
      have held := total.openUntil e now cb call found tripped
      rwa [window] at held
    · have fits := total.attemptNum d counts
      omega
  · intro moderate
    refine ⟨fun e now cb call found => ?_,fun e now cb call found tripped => ?_,fun d counts => ?_,?_,?_⟩
    · rw [(tallying.breakers e cb found).count]
      exact moderate.streak e now call
    · obtain ⟨bound,window,count,closed⟩ := tallying.breakers e cb found
      have trips := (CircuitBreaker.trips_exact count bound (moderate.streak e now call) closed).mp tripped
      rw [window]
      exact moderate.clock e now call trips
    · obtain ⟨i,claimed,parent,here⟩ := numbering_parts counts
      have fits := tallying.counted i claimed parent d here
      have other := moderate.counted d counts
      omega
    · intro i
      unfold saturatingMul
      omega
    · intro i
      exact Nat.le_max_right _ _

theorem numbered_counted {w next : World} (effect : WorkerStep x loop inp w worker next after)
    (here : after.pc = .dispatching claimed parent (.checkBreaker d)) : d.attemptCount < 2^32 := by
  cases effect with
  | dispatch moved =>
    cases moved with
    | countAttempts live fits =>
      cases here
      exact fits
    | _ => cases here
  | _ => cases here

theorem Step.counted {s t : State} {a : Action} (moved : Step x cfg s a t)
    (old : ∀ i claimed parent d, (s.workers i).pc = .dispatching claimed parent (.checkBreaker d) → d.attemptCount < 2^32) :
    ∀ i claimed parent d, (t.workers i).pc = .dispatching claimed parent (.checkBreaker d) → d.attemptCount < 2^32 := by
  intro i claimed parent d here
  rcases moved.worker i with same | ⟨_,start⟩ | ⟨inp,_,effect⟩
  · exact old i claimed parent d (same ▸ here)
  · simp [start,Worker.start] at here
  · exact numbered_counted effect here

theorem tallies_update {tallied : List (Bool × Instant) → CircuitBreaker → Prop} {breakers : Breakers}
    {past later : Outcomes} (apart : ∀ k, k ≠ e → later k = past k) (mine : tallied (later e) cb)
    (old : ∀ k cb, breakers k = some cb → tallied (past k) cb) (absent : ∀ k, breakers k = none → past k = []) :
    (∀ k cb', Function.update breakers e (some cb) k = some cb' → tallied (later k) cb') ∧
      ∀ k, Function.update breakers e (some cb) k = none → later k = [] := by
  constructor
  · intro k cb' found
    by_cases same : k = e
    · subst same
      rw [Function.update_self] at found
      cases found
      exact mine
    · rw [Function.update_of_ne same] at found
      rw [apart k same]
      exact old k cb' found
  · intro k missing
    by_cases same : k = e
    · subst same
      rw [Function.update_self] at missing
      cases missing
    · rw [Function.update_of_ne same] at missing
      rw [apart k same]
      exact absent k missing

theorem BreakerStep.tallied {after : Breakers} (moved : BreakerStep (loopConfig cfg) s.state a after)
    (old : Tallying cfg s) (moderate : Moderate cfg s a) :
    (∀ e cb, after e = some cb → cb.Tallied cfg.worker.circuitFailureThreshold
      (fromSecs cfg.worker.circuitRecoveryTimeoutSecs.toNat) (noteOutcome s.state s.notes a u e)) ∧
    ∀ e, after e = none → noteOutcome s.state s.notes a u e = [] := by
  cases moved with
  | ended ends =>
    rw [noteOutcome,if_pos ends]
    exact ⟨fun e cb found => (by cases found),fun e _ => rfl⟩
  | same goes quiet =>
    rw [noteOutcome,if_neg (by simp [goes]),quiet]
    exact ⟨old.breakers,old.absent⟩
  | @asked e now goes quiet =>
    rw [noteOutcome,if_neg (by simp [goes]),quiet]
    have entry : (s.state.world.breakers.entry (loopConfig cfg).circuitFailureThreshold
        (loopConfig cfg).circuitRecovery e).Tallied cfg.worker.circuitFailureThreshold
        (fromSecs cfg.worker.circuitRecoveryTimeoutSecs.toNat) (s.notes e) := by
      unfold Breakers.entry
      cases found : s.state.world.breakers e with
      | none => rw [old.absent e found]; exact CircuitBreaker.new_tallied
      | some cb => exact old.breakers e cb found
    exact tallies_update (fun _ _ => rfl) (entry.canAttempt now) old.breakers old.absent
  | @recorded e success now cb goes call found =>
    rw [noteOutcome,if_neg (by simp [goes]),call]
    dsimp only
    refine tallies_update (fun k other => Function.update_of_ne other ..) ?_ old.breakers old.absent
    rw [Function.update_self]
    exact (old.breakers e cb found).record fun failed => moderate.streak e now (failed ▸ call)

theorem scoreStep_tallying {s t : Scored} (moved : scoreStep x cfg s a = some t) (old : Tallying cfg s)
    (moderate : Moderate cfg s a) : Tallying cfg t := by
  obtain ⟨stepped,noted⟩ := Transition.watch_some.mp moved
  have step := step_sound stepped
  obtain ⟨breakers,absent⟩ := step.breakers.tallied (u := t.state) old moderate
  refine ⟨?_,?_,step.counted old.counted⟩
  · rw [noted]
    exact breakers
  · rw [noted]
    exact absent

theorem Booted.tallying (start : Booted x cfg b) : Tallying cfg (.start b) where
  breakers := fun e cb found => by
    have none := start.breakers e
    cases none.symm.trans found
  absent := fun e _ => rfl
  counted := fun i claimed parent d here => by
    have idle : b.workers i = .start (loopConfig cfg) := start.workers i
    have here : (b.workers i).pc = .dispatching claimed parent (.checkBreaker d) := here
    rw [idle] at here
    cases here

-- Every sum of a run is in range as long as every step meets the condition, and in
-- no other run.
theorem arithmetic_total_exact (start : Booted x cfg b)
    (reached : Transition.exec (scoreStep x cfg) (.start b) actions = some t) :
    Transition.EachStep (scoreStep x cfg) (fun s a => Total cfg s.state a) (.start b) actions ↔
      Transition.EachStep (scoreStep x cfg) (Moderate cfg) (.start b) actions := by
  constructor
  · intro total
    have path := Transition.Run.check (fun s a => Total cfg s.state a) reached total
    exact (path.strengthen (Tallying cfg)
      (fun s a t old total moved => scoreStep_tallying moved old (old.total_exact.mp total)) start.tallying
      fun s a old total => old.total_exact.mp total).each
  · intro moderate
    have path := Transition.Run.check (Moderate cfg) reached moderate
    exact (path.strengthen (Tallying cfg) (fun s a t old moderate moved => scoreStep_tallying moved old moderate)
      start.tallying fun s a old moderate => old.total_exact.mpr moderate).each

theorem moderate_exact : Moderate cfg s a ↔
    (∀ call ∈ recording s.state a, call.2.1 = false → failures (s.notes call.1) + 1 < 2^32 ∧
      (tripsAt cfg.worker.circuitFailureThreshold ≤ failures (s.notes call.1) + 1 →
        call.2.2 + fromSecs cfg.worker.circuitRecoveryTimeoutSecs.toNat < instantLimit)) ∧
    ∀ d ∈ numbering cfg s.state a, d.attemptCount ≠ 2^32-1 := by
  constructor
  · intro moderate
    refine ⟨fun call present failed => ?_,fun d counts => moderate.counted d counts⟩
    obtain ⟨endpointId,success,now⟩ := call
    cases failed
    exact ⟨moderate.streak endpointId now present,moderate.clock endpointId now present⟩
  · intro each
    exact ⟨fun endpointId now call => (each.1 _ call rfl).1,fun endpointId now call => (each.1 _ call rfl).2,each.2⟩

instance (cfg : AppConfig) (s : Scored) (a : Action) : Decidable (Moderate cfg s a) := decidable_of_iff _ moderate_exact.symm

theorem arithmetic_total_exact_refused :
    ∃ t, Transition.exec (scoreStep .tabletop .default) (.start (boot .default))
        (registerAndAccept ++ Action.pass 0 12 (.error "connection refused")) = some t ∧
      Transition.EachStep (scoreStep .tabletop .default) (fun s a => Total .default s.state a) (.start (boot .default))
        (registerAndAccept ++ Action.pass 0 12 (.error "connection refused")) := by
  have ran : (Transition.exec (Transition.guard (scoreStep .tabletop .default) (Moderate .default))
      (.start (boot .default)) (registerAndAccept ++ Action.pass 0 12 (.error "connection refused"))).isSome = true := by
    decide +kernel
  obtain ⟨t,reached⟩ := Option.isSome_iff_exists.mp ran
  have path := Transition.Run.guarded reached
  exact ⟨t,path.exec,(arithmetic_total_exact (boot_booted .tabletop .default) path.exec).mpr path.each⟩

def endlessRecovery : AppConfig :=
  {AppConfig.default with
    worker := {AppConfig.default.worker with circuitFailureThreshold:=1,circuitRecoveryTimeoutSecs:=18446744073709551615}}

theorem trip_out_of_range :
    ∃ s, Transition.exec (scoreStep .tabletop endlessRecovery) (.start (boot endlessRecovery))
        (registerAndAccept ++ Action.pass 0 7 (.error "connection refused")) = some s ∧
      (step .tabletop endlessRecovery s.state (.worker 0 ⟨none,0,0,.error "",0⟩)).isSome = true ∧
      ¬Total endlessRecovery s.state (.worker 0 ⟨none,0,0,.error "",0⟩) := by
  have ran : (Transition.exec (scoreStep .tabletop endlessRecovery) (.start (boot endlessRecovery))
      (registerAndAccept ++ Action.pass 0 7 (.error "connection refused"))).map
      (fun s => ((step .tabletop endlessRecovery s.state (.worker 0 ⟨none,0,0,.error "",0⟩)).isSome,
        recording s.state (.worker 0 ⟨none,0,0,.error "",0⟩),s.state.world.breakers "1")) =
      some (true,some ("1",false,0),some ⟨.closed,0,1,18446744073709551615000000000,none,false⟩) := by decide +kernel
  obtain ⟨s,reached,here⟩ := Option.map_eq_some_iff.mp ran
  obtain ⟨goes,call,found⟩ : _ ∧ _ ∧ _ := by simpa using here
  refine ⟨s,reached,goes,fun total => ?_⟩
  have held := total.openUntil "1" 0 _ call found (.inl (by decide))
  exact absurd held (by decide)

end System
end AetherRelay
