import AetherRelay.System.Totality

namespace AetherRelay

def Worker.delivery (worker : Worker) : Option (Uuid × Uuid × Delivery) :=
  match worker.pc with
  | .dispatching claimed parent (.checkBreaker d) => some (claimed,parent,d)
  | _ => none

theorem Worker.delivery_some {worker : Worker} (asks : worker.delivery = some (claimed,parent,d)) :
    worker.pc = .dispatching claimed parent (.checkBreaker d) := by
  unfold delivery at asks
  split at asks
  · rename_i here
    cases asks
    exact here
  · cases asks

namespace System
open CircuitBreaker (life outcomes failures lastFailure pending tripsAt Ordered)

def locking (s : State) : Action → Option (Uuid × CircuitBreaker.Call × Instant)
  | .worker i inp =>
    match (s.workers i).pc with
    | .dispatching _ _ (.checkBreaker d) => some (d.endpointId,.canAttempt,inp.instant)
    | .dispatching _ _ (.updateBreaker d _ answer) =>
      (s.world.breakers d.endpointId).map fun _ =>
        (d.endpointId,if answer.success then .recordSuccess else .recordFailure,inp.instant)
    | _ => none
  | _ => none

def overhear (k : Uuid) (s : State) (calls : List (CircuitBreaker.Call × Instant)) (a : Action) (_ : State) : List (CircuitBreaker.Call × Instant) :=
  if a.ends = true then []
  else match locking s a with
    | some (endpointId,call,instant) => if endpointId = k then (call,instant) :: calls else calls
    | none => calls

def lived (cfg : AppConfig) (calls : List (CircuitBreaker.Call × Instant)) : Option CircuitBreaker :=
  if calls = [] then none
  else some (life cfg.worker.circuitFailureThreshold (fromSecs cfg.worker.circuitRecoveryTimeoutSecs.toNat) calls).1

section
variable {x : Externals} {cfg : AppConfig} {s t : State} {a : Action} {k : Uuid} {calls : List (CircuitBreaker.Call × Instant)}
  {inp : Input}

theorem lived_cons (call : CircuitBreaker.Call) (now : Instant) :
    lived cfg ((call,now) :: calls) = some (CircuitBreaker.respond (life cfg.worker.circuitFailureThreshold
      (fromSecs cfg.worker.circuitRecoveryTimeoutSecs.toNat) calls).1 call now).1 := if_neg (by simp)

theorem entry_lived {breakers : Breakers} (same : breakers k = lived cfg calls) :
    breakers.entry (loopConfig cfg).circuitFailureThreshold (loopConfig cfg).circuitRecovery k =
      (life cfg.worker.circuitFailureThreshold (fromSecs cfg.worker.circuitRecoveryTimeoutSecs.toNat) calls).1 := by
  unfold Breakers.entry
  rw [same]
  cases calls with
  | nil => rfl
  | cons call earlier => rfl

theorem checkBreaker_lived {w : World} (same : w.breakers k = lived cfg calls) :
    (checkBreaker (loopConfig cfg) w inp k).1.breakers k = lived cfg ((.canAttempt,inp.instant) :: calls) := by
  rw [lived_cons,← entry_lived same]
  exact Function.update_self ..

theorem record_lived {breakers : Breakers} (same : breakers k = lived cfg calls) (found : breakers k = some cb)
    (success : Bool) (now : Instant) : breakers.record k success now k =
      lived cfg ((if success = true then CircuitBreaker.Call.recordSuccess else .recordFailure,now) :: calls) := by
  have cb_lived : cb = (life cfg.worker.circuitFailureThreshold
      (fromSecs cfg.worker.circuitRecoveryTimeoutSecs.toNat) calls).1 := by
    rw [← entry_lived same,Breakers.entry,found]
    rfl
  rw [lived_cons,← cb_lived]
  simp only [Breakers.record,found,Function.update_self]
  cases success <;> rfl

theorem WorkerStep.overheard {next : World} (effect : WorkerStep x (loopConfig cfg) inp s.world (s.workers i) next after)
    (old : s.world.breakers k = lived cfg calls) : next.breakers k = lived cfg (overhear k s calls (.worker i inp) t) := by
  have quiet : locking s (.worker i inp) = none → overhear k s calls (.worker i inp) t = calls := by
    intro none'
    simp only [overhear,none',Action.ends,Bool.false_eq_true,if_false]
  generalize mine : s.workers i = worker at effect
  cases effect with
  | dispatch moved =>
    rename_i pc after claimed parent p
    have checks : ∀ d, pc = .checkBreaker d → (checkBreaker (loopConfig cfg) s.world inp d.endpointId).1.breakers k =
        lived cfg (overhear k s calls (.worker i inp) t) := by
      intro d here
      subst here
      have call : locking s (.worker i inp) = some (d.endpointId,.canAttempt,inp.instant) := by simp only [locking,mine]
      simp only [overhear,call,Action.ends,Bool.false_eq_true,if_false]
      by_cases same : d.endpointId = k
      · rw [if_pos same,same]
        exact checkBreaker_lived old
      · rw [if_neg same,← old]
        exact Function.update_of_ne (Ne.symm same) ..
    cases moved with
    | withheld refused => exact checks _ rfl
    | admitted open' => exact checks _ rfl
    | @updateBreaker _ d mode answer =>
      have call : locking s (.worker i inp) = (s.world.breakers d.endpointId).map fun _ =>
          (d.endpointId,if answer.success then .recordSuccess else .recordFailure,inp.instant) := by
        simp only [locking,mine]
      dsimp only [updateBreaker]
      cases found : s.world.breakers d.endpointId with
      | none =>
        rw [found] at call
        rw [quiet call,← old]
        simp only [Breakers.record,found]
      | some cb =>
        rw [found] at call
        simp only [overhear,call,Option.map_some,Action.ends,Bool.false_eq_true,if_false]
        by_cases same : d.endpointId = k
        · rw [if_pos same]
          rw [same] at found
          rw [same]
          exact record_lived old found answer.success inp.instant
        · rw [if_neg same,← old]
          simp only [Breakers.record,found]
          exact Function.update_of_ne (Ne.symm same) ..
    | failed cause =>
      cases pc with
      | checkBreaker d => cases cause
      | updateBreaker d mode answer => cases cause
      | _ => rw [quiet (by simp only [locking,mine])]; exact old
    | _ => rw [quiet (by simp only [locking,mine])]; exact old
  | _ => rw [quiet (by simp only [locking,mine])]; exact old

theorem Step.overheard (moved : Step x cfg s a t) (old : s.world.breakers k = lived cfg calls) :
    t.world.breakers k = lived cfg (overhear k s calls a t) := by
  cases moved with
  | created live effect => cases effect <;> exact old
  | deleted live effect => cases effect <;> exact old
  | accepted live effect => cases effect <;> exact old
  | ingestStarted live gates => cases gates; exact old
  | ingested live present effect =>
    cases effect with
    | accepted inner => cases inner <;> exact old
    | _ => exact old
  | replayStarted live => exact old
  | replayed live present effect => cases effect <;> exact old
  | worked live effect => exact WorkerStep.overheard effect old
  | killed live => rfl
  | shutDown live quiet => rfl
  | restarted down => exact old

theorem own_life (start : Booted x cfg b) (k : Uuid)
    (path : Transition.Run (Transition.watch (step x cfg) (overhear k)) (fun _ _ => True) ⟨b,[]⟩ actions o) :
    o.state.world.breakers k = lived cfg o.notes := by
  refine path.preserves (fun p => p.state.world.breakers k = lived cfg p.notes) ?_ (start.breakers k)
  intro p a q old _ moved
  obtain ⟨stepped,notes⟩ := Transition.watch_some.mp moved
  rw [notes]
  exact (step_sound stepped).overheard old

theorem pass_section {t : State} (moved : step x cfg s (.worker i inp) = some t) :
    WorkerStep x (loopConfig cfg) inp s.world (s.workers i) t.world (t.workers i) := by
  cases step_sound moved with
  | worked live effect => simpa only [Function.update_self] using effect

theorem withheld_refused (moved : step x cfg s (.worker i inp) = some t)
    (at' : (s.workers i).pc = .dispatching claimed parent (.checkBreaker d)) :
    (t.workers i).pc = .dispatching claimed parent (.requeueDeferred d) ↔
      (checkBreaker (loopConfig cfg) s.world inp d.endpointId).2 = true := by
  have effect := pass_section moved
  generalize s.workers i = worker at effect at'
  generalize t.workers i = after at effect
  generalize t.world = next at effect
  cases effect with
  | dispatch inner =>
    cases at'
    cases inner with
    | withheld refused => simp [refused]
    | admitted open' => simp [open']
    | failed cause => cases cause
  | _ => cases at'

-- A pass is put off exactly when the outcomes of its own endpoint since the process
-- started end in enough failures, and either the last of them is too recent or the
-- request that is to probe the endpoint is still out. What became of the deliveries
-- to other endpoints does not enter into it.
theorem put_off_for_own_failures (start : Booted x cfg b)
    (path : Transition.Run (Transition.watch (step x cfg) (overhear d.endpointId)) (fun _ _ => True) ⟨b,[]⟩ actions o)
    (ordered : Ordered o.notes) (later : ∀ call ∈ o.notes, call.2 ≤ inp.instant)
    (few : failures (outcomes o.notes) < 2^32)
    (at' : (o.state.workers i).pc = .dispatching claimed parent (.checkBreaker d))
    (moved : step x cfg o.state (.worker i inp) = some t) :
    (t.workers i).pc = .dispatching claimed parent (.requeueDeferred d) ↔
      tripsAt cfg.worker.circuitFailureThreshold ≤ failures (outcomes o.notes) ∧
      ∃ tf, lastFailure (outcomes o.notes) = some tf ∧
        (inp.instant < tf + fromSecs cfg.worker.circuitRecoveryTimeoutSecs.toNat ∨
          pending (life cfg.worker.circuitFailureThreshold (fromSecs cfg.worker.circuitRecoveryTimeoutSecs.toNat)
            o.notes).2 = true) := by
  rw [withheld_refused moved at']
  have follows := CircuitBreaker.life_follows cfg.worker.circuitFailureThreshold
    (fromSecs cfg.worker.circuitRecoveryTimeoutSecs.toNat) o.notes ordered few later
  have asked : (checkBreaker (loopConfig cfg) o.state.world inp d.endpointId).2 =
      !((life cfg.worker.circuitFailureThreshold (fromSecs cfg.worker.circuitRecoveryTimeoutSecs.toNat)
        o.notes).1.canAttempt inp.instant).2 := by
    rw [← entry_lived (own_life start d.endpointId path)]
    rfl
  have admits := follows.canAttempt_iff (Nat.le_refl inp.instant)
  have shut := follows.state_closed (Nat.le_refl inp.instant)
  have half := follows.state_halfOpen (Nat.le_refl inp.instant)
  rw [shut,half] at admits
  rw [asked,Bool.not_eq_true',Bool.eq_false_iff,Ne,admits]
  constructor
  · intro refused
    obtain ⟨many,other⟩ := not_or.mp refused
    have tripped := Nat.le_of_not_lt many
    obtain ⟨tf,failed,_⟩ := follows.tripped tripped
    refine ⟨tripped,tf,failed,?_⟩
    by_cases soon : inp.instant < tf + fromSecs cfg.worker.circuitRecoveryTimeoutSecs.toNat
    · exact .inl soon
    · refine .inr (Bool.of_not_eq_false fun idle => other ⟨⟨tripped,tf,failed,Nat.le_of_not_lt soon⟩,idle⟩)
  · rintro ⟨tripped,tf,failed,cause⟩ (below | ⟨⟨_,tf',failed',passed⟩,idle⟩)
    · exact absurd below (Nat.not_lt.mpr tripped)
    · rw [failed] at failed'
      cases failed'
      rcases cause with soon | out
      · exact absurd passed (Nat.not_le.mpr soon)
      · rw [idle] at out
        cases out

end

def triesAgain : List Action :=
  registerAndAccept ++ Action.pass 0 12 (.error "connection refused") ++ Action.pass 0 4 (.error "connection refused")

def frail : AppConfig :=
  {AppConfig.default with worker := {AppConfig.default.worker with circuitFailureThreshold:=1}}

theorem put_off_for_own_failures_once :
    ∃ o t, Transition.Run (Transition.watch (step .tabletop frail) (overhear "1")) (fun _ _ => True) ⟨boot frail,[]⟩
        triesAgain o ∧
      step .tabletop frail o.state (.worker 0 ⟨none,0,0,.error "",0⟩) = some t ∧
      (t.workers 0).pc = .dispatching "11" "1" (.requeueDeferred ⟨"11","1","https://hooks.example.com/in",[],1⟩) := by
  have ran : (Transition.exec (Transition.watch (step .tabletop frail) (overhear "1")) ⟨boot frail,[]⟩ triesAgain).map
      (fun o => (o.notes,(o.state.workers 0).delivery,(step .tabletop frail o.state (.worker 0 ⟨none,0,0,.error "",0⟩)).isSome)) =
      some ([(.recordFailure,0),(.canAttempt,0)],some ("11","1",⟨"11","1","https://hooks.example.com/in",[],1⟩),true) := by
    decide +kernel
  obtain ⟨o,reached,parts⟩ := Option.map_eq_some_iff.mp ran
  simp only [Prod.mk.injEq] at parts
  obtain ⟨notes,at',goes⟩ := parts
  obtain ⟨t,moved⟩ := Option.isSome_iff_exists.mp goes
  have path := Transition.Run.check (fun _ _ => True) reached (fun _ _ _ _ _ _ => trivial)
  refine ⟨o,t,path,moved,?_⟩
  apply (put_off_for_own_failures (boot_booted .tabletop frail) path ?_ ?_ ?_ (Worker.delivery_some at') moved).mpr
  · rw [notes]
    exact ⟨by decide,0,rfl,.inl (by decide)⟩
  · rw [notes]
    unfold Ordered
    decide
  · rw [notes]
    decide
  · rw [notes]
    decide

end System
end AetherRelay
