import AetherRelay.Worker.Release
import AetherRelay.System.Totality

namespace AetherRelay
open CircuitBreaker (tripsAt)

-- The requests answered with a failure since `since`, against the time they took. A
-- closed circuit counts them; one that has tripped has let a recovery time pass for
-- each of them but the first few.
structure CircuitBreaker.Charged (threshold : UInt32) (recovery since latest failed : Nat)
    (cb : CircuitBreaker) : Prop where
  bound : cb.failureThreshold = threshold
  window : cb.recoveryTimeout = recovery
  closed : cb.state = .closed → failed ≤ cb.failureCount.toNat ∧ cb.failureCount.toNat < tripsAt threshold
  tripped : cb.state ≠ .closed → ∃ til : Nat, cb.openUntil = some til ∧ til ≤ latest + recovery ∧
    (cb.state = .halfOpen → til ≤ latest) ∧
    failed * recovery + recovery + since ≤ tripsAt threshold * recovery + til

namespace CircuitBreaker
variable {threshold : UInt32} {recovery since latest now failed : Nat} {cb : CircuitBreaker}

theorem tripsAt_pos (threshold : UInt32) : 0 < tripsAt threshold := Nat.le_max_left 1 _

theorem tripsAt_fits (threshold : UInt32) : tripsAt threshold < 2^32 := by
  have small := threshold.toNat_lt
  unfold tripsAt
  omega

theorem new_charged : Charged threshold recovery since latest 0 (.new threshold recovery) :=
  ⟨rfl,rfl,fun _ => ⟨Nat.zero_le _,tripsAt_pos threshold⟩,fun wrong => absurd rfl wrong⟩

theorem Charged.later (old : Charged threshold recovery since latest failed cb) (forward : latest ≤ now) :
    Charged threshold recovery since now failed cb := by
  refine ⟨old.bound,old.window,old.closed,fun other => ?_⟩
  obtain ⟨til,deadline,soon,half,paid⟩ := old.tripped other
  exact ⟨til,deadline,by omega,fun is => Nat.le_trans (half is) forward,paid⟩

theorem Charged.observe (old : Charged threshold recovery since latest failed cb) (forward : latest ≤ now) :
    Charged threshold recovery since now failed (cb.observe now) := by
  by_cases shut : cb.state = .closed
  · rw [observe_of_closed shut]
    exact old.later forward
  · obtain ⟨til,deadline,soon,half,paid⟩ := old.tripped shut
    have stored : cb.state = .open ∨ cb.state = .halfOpen ∧ til ≤ latest := by
      cases is : cb.state with
      | closed => exact absurd is shut
      | «open» => exact .inl rfl
      | halfOpen => exact .inr ⟨rfl,half is⟩
    rw [observe_tripped deadline stored forward]
    refine ⟨old.bound,old.window,fun is => ?_,fun _ => ⟨til,deadline,Nat.le_trans soon (Nat.add_le_add_right forward _),?_,paid⟩⟩
    · dsimp only at is
      split at is <;> cases is
    · intro is
      dsimp only at is
      split at is
      · assumption
      · cases is

theorem Charged.canAttempt (old : Charged threshold recovery since latest failed cb) (forward : latest ≤ now) :
    Charged threshold recovery since now failed (cb.canAttempt now).1 := by
  have seen := old.observe forward
  cases stored : (cb.observe now).state with
  | closed => rwa [canAttempt_of_closed stored]
  | «open» => rwa [canAttempt_of_open stored]
  | halfOpen =>
    cases flag : (cb.observe now).probeInFlight with
    | true => rwa [canAttempt_of_taken stored flag]
    | false =>
      rw [canAttempt_of_free stored flag]
      exact ⟨seen.bound,seen.window,seen.closed,seen.tripped⟩

theorem canAttempt_admitted (admitted : (cb.canAttempt now).2 = true) : (cb.canAttempt now).1.state ≠ .open := by
  cases stored : (cb.observe now).state with
  | closed =>
    rw [canAttempt_of_closed stored,stored]
    simp
  | «open» =>
    rw [canAttempt_of_open stored] at admitted
    cases admitted
  | halfOpen =>
    cases flag : (cb.observe now).probeInFlight with
    | true =>
      rw [canAttempt_of_taken stored flag] at admitted
      cases admitted
    | false =>
      rw [canAttempt_of_free stored flag]
      simp [stored]

theorem recordSuccess_charged (bound : cb.failureThreshold = threshold) (window : cb.recoveryTimeout = recovery) :
    Charged threshold recovery now now 0 cb.recordSuccess :=
  ⟨bound,window,fun _ => ⟨Nat.zero_le _,tripsAt_pos threshold⟩,fun wrong => absurd rfl wrong⟩

theorem Charged.recordFailure (old : Charged threshold recovery since latest failed cb) (admitted : cb.state ≠ .open)
    (begun : since ≤ latest) (forward : latest ≤ now) :
    Charged threshold recovery since now (failed+1) (cb.recordFailure now) := by
  have charge : (failed+1) * recovery = failed * recovery + recovery := Nat.succ_mul failed recovery
  cases is : cb.state with
  | «open» => exact absurd is admitted
  | halfOpen =>
    obtain ⟨til,deadline,_,half,paid⟩ := old.tripped (by simp [is])
    have passed := half is
    have reopened : cb.recordFailure now =
        {cb with failureCount:=cb.failureCount+1,state:=.open,openUntil:=some (now + cb.recoveryTimeout),probeInFlight:=false} := by
      simp [CircuitBreaker.recordFailure,is]
    rw [reopened]
    refine ⟨old.bound,old.window,fun shut => (by cases shut),fun _ => ⟨now + cb.recoveryTimeout,rfl,?_,fun half => (by cases half),?_⟩⟩
    · rw [old.window]
    · rw [old.window,charge]
      omega
  | closed =>
    obtain ⟨counted,few⟩ := old.closed is
    have fits := tripsAt_fits threshold
    have next : (cb.failureCount+1).toNat = cb.failureCount.toNat+1 := failureCount_next rfl (by omega)
    by_cases many : cb.failureThreshold ≤ cb.failureCount+1
    · have opened : cb.recordFailure now =
          {cb with failureCount:=cb.failureCount+1,state:=.open,openUntil:=some (now + cb.recoveryTimeout),probeInFlight:=false} := by
        simp [CircuitBreaker.recordFailure,many]
      have level : (failed+1) * recovery ≤ tripsAt threshold * recovery := Nat.mul_le_mul_right _ (by omega)
      rw [opened]
      refine ⟨old.bound,old.window,fun shut => (by cases shut),fun _ => ⟨now + cb.recoveryTimeout,rfl,?_,fun half => (by cases half),?_⟩⟩
      · rw [old.window]
      · rw [old.window]
        omega
    · have stays : cb.recordFailure now = {cb with failureCount:=cb.failureCount+1,probeInFlight:=false} := by
        simp [CircuitBreaker.recordFailure,many,is]
      have low : ¬threshold.toNat ≤ cb.failureCount.toNat+1 := by
        rw [← next,← old.bound]
        exact fun high => many (UInt32.le_iff_toNat_le.mpr high)
      rw [stays]
      refine ⟨old.bound,old.window,fun _ => ?_,fun wrong => absurd is wrong⟩
      dsimp only
      rw [next]
      unfold tripsAt
      omega

theorem Charged.bounded (old : Charged threshold recovery since latest failed cb) (begun : since ≤ latest) :
    failed * recovery + since ≤ tripsAt threshold * recovery + latest := by
  by_cases shut : cb.state = .closed
  · obtain ⟨counted,few⟩ := old.closed shut
    have level : failed * recovery ≤ tripsAt threshold * recovery := Nat.mul_le_mul_right _ (by omega)
    omega
  · obtain ⟨til,_,soon,_,paid⟩ := old.tripped shut
    omega

end CircuitBreaker

def WorkerPc.asking (k : Uuid) : WorkerPc → Bool
  | .dispatching _ _ (.send d _) | .dispatching _ _ (.await d _) | .dispatching _ _ (.updateBreaker d _ _) => d.endpointId = k
  | _ => false

def WorkerPc.sends (k : Uuid) : WorkerPc → Bool
  | .dispatching _ _ (.send d _) => d.endpointId = k
  | _ => false

theorem WorkerPc.sends_asking {pc : WorkerPc} (idle : pc.asking k = false) : pc.sends k = false := by
  unfold sends
  split
  · exact idle
  · rfl

namespace System

def sentTo (k : Uuid) (history : List Happening) : Nat :=
  history.countP fun h => match h with
    | .posted _ endpointId _ _ => endpointId = k
    | _ => false

-- The time since an endpoint last answered with success, or since the process
-- started: how many requests it was sent, and the first and the last instant of it.
structure Spell where
  requests : Nat
  since : Option Nat
  latest : Nat

def Spell.blank : Spell := ⟨0,none,0⟩

def noteSpell (k : Uuid) (s : State) (n : Spell) (a : Action) (t : State) : Spell :=
  match a with
  | .kill | .shutdown => .blank
  | .worker _ inp =>
    if recording s a = some (k,true,inp.instant) then ⟨0,some inp.instant,inp.instant⟩
    else ⟨n.requests + (sentTo k t.world.history - sentTo k s.world.history),some (n.since.getD inp.instant),inp.instant⟩
  | _ => n

def forward (n : Spell) : Action → Bool
  | .worker _ inp => n.latest ≤ inp.instant
  | _ => true

def recoveryTime (cfg : AppConfig) : Nat := fromSecs cfg.worker.circuitRecoveryTimeoutSecs.toNat

structure Spared (cfg : AppConfig) (k : Uuid) (breaker : Option CircuitBreaker) (pc : WorkerPc) (n : Spell) : Prop where
  order : ∀ since, n.since = some since → since ≤ n.latest
  absent : breaker = none → n.requests = 0 ∧ pc.asking k = false
  charged : ∀ cb, breaker = some cb → ∃ since failed, n.since = some since ∧
    n.requests + (pc.sends k).toNat = failed + (pc.asking k).toNat ∧
    cb.Charged cfg.worker.circuitFailureThreshold (recoveryTime cfg) since n.latest failed ∧
    (pc.asking k = true → cb.state ≠ .open)

section
variable {x : Externals} {cfg : AppConfig} {s t : State} {a : Action} {k : Uuid} {n : Spell} {inp : Input}
  {breaker : Option CircuitBreaker} {pc pc' : WorkerPc} {w next : World}

theorem Spared.begun (old : Spared cfg k breaker pc n) (forward : n.latest ≤ now) : n.since.getD now ≤ now := by
  cases since : n.since with
  | none => exact Nat.le_refl _
  | some first => exact Nat.le_trans (old.order first since) forward

theorem Spared.kept (old : Spared cfg k breaker pc n) (sent : Nat) (same : pc'.asking k = pc.asking k)
    (count : sent + (pc'.sends k).toNat = (pc.sends k).toNat) (forward : n.latest ≤ now) :
    Spared cfg k breaker pc' ⟨n.requests + sent,some (n.since.getD now),now⟩ := by
  refine ⟨fun since first => ?_,fun none' => ?_,fun cb found => ?_⟩
  · cases first
    exact old.begun forward
  · obtain ⟨zero,idle⟩ := old.absent none'
    rw [WorkerPc.sends_asking idle] at count
    have unsent : sent = 0 := Nat.eq_zero_of_add_eq_zero_right count
    exact ⟨by rw [zero,unsent],same.trans idle⟩
  · obtain ⟨since,failed,first,balance,charged,admitted⟩ := old.charged cb found
    refine ⟨since,failed,by simp [first],?_,charged.later forward,fun asks => admitted (same ▸ asks)⟩
    rw [Nat.add_assoc,count,same]
    exact balance

theorem Spared.asked (old : Spared cfg k (w.breakers k) pc n) (before : pc.asking k = false)
    (forward : n.latest ≤ inp.instant) (next : pc'.sends k = pc'.asking k)
    (free : pc'.asking k = true → (checkBreaker (loopConfig cfg) w inp k).2 = false) :
    Spared cfg k ((checkBreaker (loopConfig cfg) w inp k).1.breakers k) pc'
      ⟨n.requests,some (n.since.getD inp.instant),inp.instant⟩ := by
  have charged : (w.breakers.entry cfg.worker.circuitFailureThreshold (recoveryTime cfg) k).Charged
      cfg.worker.circuitFailureThreshold (recoveryTime cfg) (n.since.getD inp.instant) n.latest n.requests := by
    unfold Breakers.entry
    cases found : w.breakers k with
    | none =>
      rw [(old.absent found).1]
      exact CircuitBreaker.new_charged
    | some cb =>
      obtain ⟨since,failed,first,count,charged,_⟩ := old.charged cb found
      rw [WorkerPc.sends_asking before,before] at count
      have same : n.requests = failed := count
      rw [first,same]
      exact charged
  have stored : (checkBreaker (loopConfig cfg) w inp k).1.breakers k =
      some ((w.breakers.entry cfg.worker.circuitFailureThreshold (recoveryTime cfg) k).canAttempt inp.instant).1 :=
    Function.update_self ..
  rw [stored]
  refine ⟨fun since same => (by cases same; exact old.begun forward),fun none' => (by cases none'),fun cb same => ?_⟩
  cases same
  refine ⟨_,n.requests,rfl,by rw [next],charged.canAttempt forward,fun asks => ?_⟩
  apply CircuitBreaker.canAttempt_admitted
  have answer : (!((w.breakers.entry cfg.worker.circuitFailureThreshold (recoveryTime cfg) k).canAttempt inp.instant).2) = false :=
    free asks
  simpa using answer

theorem Spared.recorded (old : Spared cfg k breaker pc n) (before : pc.asking k = true) (sent : pc.sends k = false)
    (after : pc'.asking k = false) (found : breaker = some cb) (success : Bool) (forward : n.latest ≤ now) :
    Spared cfg k (some (cb.record success now)) pc'
      (if success = true then ⟨0,some now,now⟩ else ⟨n.requests,some (n.since.getD now),now⟩) := by
  obtain ⟨since,failed,first,count,charged,admitted⟩ := old.charged cb found
  have silent := WorkerPc.sends_asking after
  cases success with
  | true =>
    refine ⟨fun since same => (by cases same; exact Nat.le_refl _),fun none' => (by cases none'),fun cb' same => ?_⟩
    cases same
    refine ⟨now,0,rfl,?_,CircuitBreaker.recordSuccess_charged charged.bound charged.window,fun asks => ?_⟩
    · rw [silent,after]
      rfl
    · rw [after] at asks
      cases asks
  | false =>
    refine ⟨fun since same => (by cases same; exact old.begun forward),fun none' => (by cases none'),fun cb' same => ?_⟩
    cases same
    refine ⟨since,failed+1,by simp [first],?_,charged.recordFailure (admitted before) (old.order since first) forward,fun asks => ?_⟩
    · rw [sent,before] at count
      rw [silent,after]
      exact count
    · rw [after] at asks
      cases asks

theorem WorkerStep.spared (effect : WorkerStep x (loopConfig cfg) inp s.world (s.workers 0) next after)
    (old : Spared cfg k (s.world.breakers k) (s.workers 0).pc n) (forward : n.latest ≤ inp.instant) (world : t.world = next) :
    Spared cfg k (next.breakers k) after.pc (noteSpell k s n (.worker 0 inp) t) := by
  have noted : ∀ sent, recording s (.worker 0 inp) ≠ some (k,true,inp.instant) → sentTo k next.history = sentTo k s.world.history + sent →
      noteSpell k s n (.worker 0 inp) t = ⟨n.requests + sent,some (n.since.getD inp.instant),inp.instant⟩ := by
    intro sent other more
    simp only [noteSpell,if_neg other,world,more]
    congr 2
    omega
  have kept : ∀ sent, recording s (.worker 0 inp) ≠ some (k,true,inp.instant) → sentTo k next.history = sentTo k s.world.history + sent →
      next.breakers k = s.world.breakers k → after.pc.asking k = (s.workers 0).pc.asking k →
      sent + (after.pc.sends k).toNat = ((s.workers 0).pc.sends k).toNat →
      Spared cfg k (next.breakers k) after.pc (noteSpell k s n (.worker 0 inp) t) := by
    intro sent other more breaker same count
    rw [noted sent other more,breaker]
    exact old.kept sent same count forward
  have quiet : (∀ claimed parent d mode answer, (s.workers 0).pc ≠ .dispatching claimed parent (.updateBreaker d mode answer)) →
      recording s (.worker 0 inp) ≠ some (k,true,inp.instant) := by
    intro other
    simp [recording]
  generalize mine : s.workers 0 = worker at effect old kept quiet
  cases effect with
  | dispatch moved =>
    rename_i pc after claimed parent p
    cases moved with
    | @withheld _ d refused =>
      by_cases same : d.endpointId = k
      · subst same
        rw [noted 0 (quiet (by simp)) rfl]
        exact old.asked rfl forward rfl fun asks => (by cases asks)
      · exact kept 0 (quiet (by simp)) rfl (Function.update_of_ne (Ne.symm same) ..) rfl rfl
    | @admitted _ d open' =>
      by_cases same : d.endpointId = k
      · subst same
        rw [noted 0 (quiet (by simp)) rfl]
        exact old.asked rfl forward rfl fun _ => open'
      · have asking : WorkerPc.asking k (.dispatching claimed parent (.send d ((s.world.breakers.entry
            (loopConfig cfg).circuitFailureThreshold (loopConfig cfg).circuitRecovery d.endpointId).observe inp.instant).state)) = false := by
          simp [WorkerPc.asking,same]
        exact kept 0 (quiet (by simp)) rfl (Function.update_of_ne (Ne.symm same) ..) asking (by
          rw [WorkerPc.sends_asking asking]; rfl)
    | @send _ d mode =>
      by_cases same : d.endpointId = k
      · exact kept 1 (quiet (by simp)) (by simp [sentTo,same]) rfl rfl (by simp [WorkerPc.sends,same])
      · exact kept 0 (quiet (by simp)) (by simp [sentTo,same]) rfl rfl (by simp [WorkerPc.sends,same])
    | await => exact kept 0 (quiet (by simp)) (by simp [sentTo]) rfl rfl rfl
    | @updateBreaker _ d mode answer =>
      have call : recording s (.worker 0 inp) =
          (s.world.breakers d.endpointId).map fun _ => (d.endpointId,answer.success,inp.instant) := by
        simp only [recording,mine]
      have silent : sentTo k (updateBreaker s.world inp d.endpointId answer).history = sentTo k s.world.history := rfl
      cases found : s.world.breakers d.endpointId with
      | none =>
        rw [found] at call
        have other : d.endpointId ≠ k := by
          intro same
          have idle := (old.absent (same ▸ found)).2
          simp [WorkerPc.asking,same] at idle
        refine kept 0 (by rw [call]; simp) silent ?_ (by simp [WorkerPc.asking,other]) rfl
        simp only [updateBreaker,Breakers.record,found]
      | some cb =>
        rw [found] at call
        by_cases same : d.endpointId = k
        · subst same
          have stored : (updateBreaker s.world inp d.endpointId answer).breakers d.endpointId =
              some (cb.record answer.success inp.instant) := by
            simp only [updateBreaker,Breakers.record,found,Function.update_self]
          have over' : WorkerPc.asking d.endpointId (.dispatching claimed parent (.insertAttempt d answer)) = false := rfl
          have recorded := old.recorded (by simp [WorkerPc.asking]) rfl over' found answer.success forward
          rw [stored]
          cases success : answer.success with
          | true =>
            rw [success] at call recorded
            have ended : noteSpell d.endpointId s n (.worker 0 inp) t = ⟨0,some inp.instant,inp.instant⟩ := if_pos call
            rw [ended]
            exact recorded
          | false =>
            rw [success] at call recorded
            rw [noted 0 (by rw [call]; simp) silent]
            exact recorded
        · refine kept 0 (by rw [call]; simp [same]) silent ?_ (by simp [WorkerPc.asking,same]) rfl
          simp only [updateBreaker,Breakers.record,found]
          exact Function.update_of_ne (Ne.symm same) ..
    | failed cause =>
      cases pc with
      | checkBreaker d => cases cause
      | send d mode => cases cause
      | await d mode => cases cause
      | updateBreaker d mode answer => cases cause
      | _ => exact kept 0 (quiet (by simp)) rfl rfl rfl rfl
    | _ => exact kept 0 (quiet (by simp)) rfl rfl rfl rfl
  | _ => exact kept 0 (quiet (by simp)) (by simp [sentTo]) rfl rfl rfl

theorem Step.spared (moved : Step x cfg s a t) (alone : a.single = true) (onward : forward n a = true)
    (old : Spared cfg k (s.world.breakers k) (s.workers 0).pc n) :
    Spared cfg k (t.world.breakers k) (t.workers 0).pc (noteSpell k s n a t) := by
  have blank : Spared cfg k none (Worker.start (loopConfig cfg)).pc .blank :=
    ⟨fun since first => (by cases first),fun _ => ⟨rfl,rfl⟩,fun cb found => (by cases found)⟩
  cases moved with
  | created live effect => cases effect <;> exact old
  | deleted live effect => cases effect <;> exact old
  | accepted live effect => cases effect <;> exact old
  | ingestStarted live gates => cases gates; exact old
  | ingested live present effect =>
    cases effect with
    | accepted inner => cases inner <;> exact old
    | _ => exact old
  | replayStarted live => exact old
  | replayed live present effect => cases effect <;> exact old
  | worked live effect =>
    rename_i inp next after i
    have first : i = 0 := of_decide_eq_true alone
    subst first
    dsimp only
    rw [Function.update_self]
    exact WorkerStep.spared effect old (of_decide_eq_true onward) rfl
  | killed live => exact blank
  | shutDown live quiet => exact blank
  | restarted down => exact old

-- The process runs one loop, whose clock does not go back. However its requests are
-- failing, what an endpoint is sent between two successes is what trips its circuit,
-- one request more, and then one for each recovery time that passes.
theorem failing_endpoint_spared (start : Booted x cfg b) (k : Uuid)
    (path : Transition.Run (Transition.watch (step x cfg) (noteSpell k)) (fun p a => a.single = true ∧ forward p.notes a = true)
      ⟨b,.blank⟩ actions o) :
    o.notes.requests * recoveryTime cfg ≤ (tripsAt cfg.worker.circuitFailureThreshold + 1) * recoveryTime cfg +
      (o.notes.latest - o.notes.since.getD o.notes.latest) := by
  have last : Spared cfg k (o.state.world.breakers k) (o.state.workers 0).pc o.notes := by
    refine path.preserves (fun p => Spared cfg k (p.state.world.breakers k) (p.state.workers 0).pc p.notes) ?_ ?_
    · rintro p a q old ⟨alone,onward⟩ moved
      obtain ⟨stepped,notes⟩ := Transition.watch_some.mp moved
      rw [notes]
      exact (step_sound stepped).spared alone onward old
    · rw [start.breakers,start.workers]
      exact ⟨fun since first => (by cases first),fun _ => ⟨rfl,rfl⟩,fun cb found => (by cases found)⟩
  cases breaker : o.state.world.breakers k with
  | none =>
    rw [(last.absent breaker).1,Nat.zero_mul]
    exact Nat.zero_le _
  | some cb =>
    obtain ⟨since,failed,first,count,charged,_⟩ := last.charged cb breaker
    have begun := last.order since first
    have paid := charged.bounded begun
    have few : o.notes.requests ≤ failed + 1 := by
      have one : ((o.state.workers 0).pc.asking k).toNat ≤ 1 := Bool.toNat_le _
      omega
    have level : o.notes.requests * recoveryTime cfg ≤ failed * recoveryTime cfg + recoveryTime cfg := by
      rw [← Nat.succ_mul]
      exact Nat.mul_le_mul_right _ few
    rw [first,Option.getD_some,Nat.succ_mul]
    omega

end

def tripsAtOnce : AppConfig := {AppConfig.default with worker := {AppConfig.default.worker with circuitFailureThreshold:=1}}

def failingPass (n : Nat) (instant : Nat) : List Action := List.replicate n (.worker 0 ⟨none,0,instant,.error "",1000⟩)

theorem failing_endpoint_spared_probed :
    ∃ o, Transition.Run (Transition.watch (step .tabletop tripsAtOnce) (noteSpell "1"))
        (fun p a => a.single = true ∧ forward p.notes a = true) ⟨boot tripsAtOnce,.blank⟩
        (registerAndAccept ++ failingPass 20 0 ++ failingPass 8 30000000000) o ∧
      o.notes.requests = 2 ∧
      2 * recoveryTime tripsAtOnce ≤ (tripsAt tripsAtOnce.worker.circuitFailureThreshold + 1) * recoveryTime tripsAtOnce +
        (30000000000 - 0) := by
  have ran : (Transition.exec (Transition.guard (Transition.watch (step .tabletop tripsAtOnce) (noteSpell "1"))
      (fun p a => a.single = true ∧ forward p.notes a = true)) ⟨boot tripsAtOnce,.blank⟩
      (registerAndAccept ++ failingPass 20 0 ++ failingPass 8 30000000000)).map
      (fun o => (o.notes.requests,o.notes.since,o.notes.latest)) = some (2,some 0,30000000000) := by decide +kernel
  obtain ⟨o,reached,parts⟩ := Option.map_eq_some_iff.mp ran
  simp only [Prod.mk.injEq] at parts
  obtain ⟨requests,since,latest⟩ := parts
  have path := Transition.Run.guarded reached
  have bound := failing_endpoint_spared (boot_booted .tabletop tripsAtOnce) "1" path
  rw [requests,since,latest] at bound
  exact ⟨o,path,requests,bound⟩

end System
end AetherRelay
