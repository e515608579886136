import AetherRelay.Api.Dlq
import AetherRelay.Worker.Steps

namespace AetherRelay

def Happening.worked : Happening → Bool
  | .replayed _ | .posted _ _ _ _ | .answered _ _ | .dispatchMetric _ _ | .slept _ | .polled _ => true
  | _ => false

-- The store and the record as someone sees them who misses nothing the passes and
-- the replays read, write or note down.
structure View where
  store : Db → Db
  told : List Happening → List Happening
  nextReceived : ∀ db, (store db).nextReceived = db.nextReceived
  event : ∀ db k, (store db).event k = db.event k
  targetUrl : ∀ db k, ((store db).endpoint k).map (·.targetUrl) = (db.endpoint k).map (·.targetUrl)
  attemptCount : ∀ db k, (store db).attemptCount k = db.attemptCount k
  letter : ∀ db k, (store db).letter k = db.letter k
  setStatus : ∀ db k st, (store db).setStatus k st = store (db.setStatus k st)
  deleteAttempts : ∀ db k, (store db).deleteAttempts k = store (db.deleteAttempts k)
  deleteLetter : ∀ db k, (store db).deleteLetter k = store (db.deleteLetter k)
  attemptStored : ∀ db row, (store db).insertAttempt row = (db.insertAttempt row).map store
  letterStored : ∀ db row, (store db).replaceLetter row = (db.replaceLetter row).map store
  note : ∀ h hs, h.worked = true → told (h :: hs) = h :: told hs

theorem statement_map (inp : Input) (f : α → β) (result : Except SqlError α) :
    statement inp (result.map f) = (statement inp result).map f := by
  unfold statement
  cases inp.fault with
  | some e => rfl
  | none => cases result <;> rfl

namespace View

def world (v : View) (w : World) : World := {w with db:=v.store w.db,history:=v.told w.history}

section
variable (v : View) (x : Externals) (cfg : DispatchLoopConfig) (inp : Input) (w : World)

theorem world_log (h : Happening) (worked : h.worked = true) : v.world (w.log h) = (v.world w).log h := by
  simp only [world,World.log,v.note h w.history worked]

theorem requeueEvent_seen (id : Uuid) :
    requeueEvent (v.world w) inp id = (requeueEvent w inp id).map v.world := by
  simp only [requeueEvent,← statement_map,world,v.setStatus]
  rfl

theorem perform_seen (pc : DispatchPc) :
    pc.perform x cfg inp (v.world w) = (pc.perform x cfg inp w).map fun p => (v.world p.1,p.2) := by
  cases pc with
  | selectEvent id =>
    have same : selectEvent (v.world w) inp id = selectEvent w inp id := by
      simp only [selectEvent,world,v.event]
    simp only [DispatchPc.perform,same]
    cases selectEvent w inp id <;> rfl
  | selectEndpoint id endpointId rawBody =>
    have same : selectTarget (v.world w) inp endpointId = selectTarget w inp endpointId := by
      have url := v.targetUrl w.db endpointId
      have seen : (v.world w).db = v.store w.db := rfl
      rw [selectTarget,selectTarget,seen]
      cases there : w.db.endpoint endpointId with
      | none =>
        rw [there,Option.map_none,Option.map_eq_none_iff] at url
        rw [url]
      | some row =>
        rw [there] at url
        obtain ⟨row',found,target⟩ := Option.map_eq_some_iff.mp url
        rw [found]
        simp only [target]
    simp only [DispatchPc.perform,same]
    cases selectTarget w inp endpointId <;> rfl
  | countAttempts id endpointId rawBody targetUrl =>
    have same : countAttempts (v.world w) inp id = countAttempts w inp id := by
      simp only [countAttempts,world,v.attemptCount]
    simp only [DispatchPc.perform,same]
    cases countAttempts w inp id <;> rfl
  | checkBreaker d => rfl
  | requeueDeferred d =>
    simp only [DispatchPc.perform,requeueEvent_seen]
    cases requeueEvent w inp d.eventId <;> rfl
  | send d mode => exact congrArg (fun u => Except.ok (u,DispatchPc.await d mode)) (v.world_log w _ rfl).symm
  | await d mode =>
    exact congrArg (fun u => Except.ok (u,DispatchPc.updateBreaker d mode inp.answer)) (v.world_log w _ rfl).symm
  | updateBreaker d mode answer => rfl
  | insertAttempt d answer =>
    have same : insertAttempt x (v.world w) inp d answer = (insertAttempt x w inp d answer).map v.world := by
      simp only [insertAttempt,← statement_map,world,v.attemptStored]
      cases w.db.insertAttempt (d.attempt answer (x.nowV7 w.drawn) inp.now) <;> rfl
    simp only [DispatchPc.perform,same]
    cases insertAttempt x w inp d answer <;> rfl
  | updateStatus d answer now =>
    have same : updateStatus cfg (v.world w) inp d answer = (updateStatus cfg w inp d answer).map v.world := by
      simp only [updateStatus,← statement_map,world,v.setStatus]
      rfl
    simp only [DispatchPc.perform,same]
    cases updateStatus cfg w inp d answer <;> rfl
  | insertDeadLetter d answer now =>
    have same : insertDeadLetter x (v.world w) inp d answer now = (insertDeadLetter x w inp d answer now).map v.world := by
      simp only [insertDeadLetter,← statement_map,world,v.letterStored]
      cases w.db.replaceLetter (d.letter answer (x.nowV7 w.drawn) now) <;> rfl
    simp only [DispatchPc.perform,same]
    cases insertDeadLetter x w inp d answer now <;> rfl
  | done id result => rfl

theorem workerStep_seen (worker : Worker) :
    workerStep x cfg inp (v.world w) worker = (workerStep x cfg inp w worker).map fun p => (v.world p.1,p.2) := by
  obtain ⟨pc,p⟩ := worker
  cases pc with
  | idle =>
    have same : claimNextEvent (v.world w) inp = (claimNextEvent w inp).map fun q => (v.world q.1,q.2) := by
      simp only [claimNextEvent,← statement_map,world,v.nextReceived]
      cases w.db.nextReceived with
      | none => rfl
      | some row =>
        dsimp only
        rw [v.setStatus]
        rfl
    simp only [workerStep,same]
    cases claimNextEvent w inp with
    | error e => rfl
    | ok claimed =>
      obtain ⟨next,taken⟩ := claimed
      cases taken <;> rfl
  | requeueing id error =>
    simp only [workerStep,requeueEvent_seen]
    cases requeueEvent w inp id <;> rfl
  | finished result =>
    have sleeps : ((decorrelatedJitter cfg.backoffBase cfg.backoffCap p inp.draw).map fun delay =>
          ((v.world w).log (.slept delay),(⟨.idle,delay⟩ : Worker))) =
        ((decorrelatedJitter cfg.backoffBase cfg.backoffCap p inp.draw).map fun delay =>
          (w.log (.slept delay),(⟨.idle,delay⟩ : Worker))).map fun q => (v.world q.1,q.2) := by
      have noted : ∀ delay, v.world (w.log (.slept delay)) = (v.world w).log (.slept delay) :=
        fun delay => v.world_log w _ rfl
      simp only [Option.map_map,Function.comp_def,noted]
    cases result with
    | error cause => exact sleeps
    | ok outcome =>
      cases outcome with
      | deferred => exact sleeps
      | settled => rfl
      | idle =>
        simp only [workerStep,Option.map_some,v.world_log w (.polled cfg.pollInterval) rfl]
  | dispatching claimed parent pc =>
    by_cases done : ∃ id r, pc = .done id r
    · obtain ⟨id,r,rfl⟩ := done
      have noted := v.world_log w (.dispatchMetric parent (outcomeLabel r)) rfl
      cases r <;> simp only [workerStep,Option.map_some,noted]
    · have running : ∀ id r, pc ≠ .done id r := fun id r same => done ⟨id,r,same⟩
      have same := perform_seen v x cfg inp w pc
      rw [workerStep_dispatching running,workerStep_dispatching running]
      cases performed : pc.perform x cfg inp w with
      | error cause =>
        rw [performed] at same
        rw [dispatchStep_error performed,dispatchStep_error same]
        rfl
      | ok result =>
        rw [performed] at same
        rw [dispatchStep_ok running performed,dispatchStep_ok running same]
        rfl

theorem replayStep_seen (pc : ReplayPc) :
    replayStep inp (v.world w) pc = (replayStep inp w pc).map fun p => (v.world p.1,p.2) := by
  have performed : pc.perform inp (v.world w) = (pc.perform inp w).map fun p => (v.world p.1,p.2) := by
    cases pc with
    | selectLetter dlqId =>
      have same : selectLetter (v.world w) inp dlqId = selectLetter w inp dlqId := by
        simp only [selectLetter,world,v.letter]
      simp only [ReplayPc.perform,same]
      cases selectLetter w inp dlqId <;> rfl
    | updateStatus dlqId eventId =>
      simp only [ReplayPc.perform,statement,world,v.setStatus]
      cases inp.fault <;> rfl
    | deleteAttempts dlqId eventId =>
      simp only [ReplayPc.perform,statement,world,v.deleteAttempts]
      cases inp.fault <;> rfl
    | deleteLetter dlqId eventId =>
      have noted := v.world_log {w with db:=w.db.deleteLetter dlqId} (.replayed eventId) rfl
      simp only [ReplayPc.perform,statement]
      cases inp.fault with
      | some e => rfl
      | none =>
        simp only [Except.map,noted]
        simp only [world,v.deleteLetter]
    | done result => rfl
  cases pc with
  | done result => rfl
  | _ =>
    simp only [replayStep,performed]
    generalize ReplayPc.perform inp w _ = outcome
    cases outcome <;> rfl

end
end View
end AetherRelay
