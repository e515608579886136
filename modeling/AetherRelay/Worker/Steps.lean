import AetherRelay.Db.Laws
import AetherRelay.Worker.Runner

namespace AetherRelay

-- Everything a running dispatch_single_event can do, one rule for each atomic
-- section and one for a section that fails. Proofs about dispatches are by cases
-- on this relation; the executable step is equal to it.
inductive DispatchStep (x : Externals) (cfg : DispatchLoopConfig) (inp : Input) :
    World → DispatchPc → World → DispatchPc → Prop where
  | selectEvent (live : inp.fault = none) (found : w.db.event eventId = some row) :
      DispatchStep x cfg inp w (.selectEvent eventId) w (.selectEndpoint eventId row.endpointId row.rawBody)
  | selectEndpoint (live : inp.fault = none) (found : w.db.endpoint endpointId = some parent) :
      DispatchStep x cfg inp w (.selectEndpoint eventId endpointId rawBody) w
        (.countAttempts eventId endpointId rawBody parent.targetUrl)
  | countAttempts (live : inp.fault = none) (fits : w.db.attemptCount eventId < 2^32) :
      DispatchStep x cfg inp w (.countAttempts eventId endpointId rawBody targetUrl) w
        (.checkBreaker ⟨eventId,endpointId,targetUrl,rawBody,w.db.attemptCount eventId⟩)
  | withheld (refused : (checkBreaker cfg w inp d.endpointId).2 = true) :
      DispatchStep x cfg inp w (.checkBreaker d) (checkBreaker cfg w inp d.endpointId).1 (.requeueDeferred d)
  | admitted (open' : (checkBreaker cfg w inp d.endpointId).2 = false) :
      DispatchStep x cfg inp w (.checkBreaker d) (checkBreaker cfg w inp d.endpointId).1
        (.send d ((w.breakers.entry cfg.circuitFailureThreshold cfg.circuitRecovery d.endpointId).observe
          inp.instant).state)
  | requeueDeferred (live : inp.fault = none) :
      DispatchStep x cfg inp w (.requeueDeferred d) {w with db:=w.db.setStatus d.eventId .received}
        (.done d.eventId (.ok .withheld))
  | send : DispatchStep x cfg inp w (.send d mode)
      (w.log (.posted d.eventId d.endpointId d.targetUrl d.rawBody)) (.await d mode)
  | await : DispatchStep x cfg inp w (.await d mode) (w.log (.answered d.eventId inp.answer))
      (.updateBreaker d mode inp.answer)
  | updateBreaker : DispatchStep x cfg inp w (.updateBreaker d mode answer)
      (updateBreaker w inp d.endpointId answer) (.insertAttempt d answer)
  | insertAttempt (live : inp.fault = none)
      (stored : w.db.insertAttempt (d.attempt answer (x.nowV7 w.drawn) inp.now) = .ok db) :
      DispatchStep x cfg inp w (.insertAttempt d answer) {w with db:=db,drawn:=w.drawn+1}
        (.updateStatus d answer inp.now)
  | exhausted (live : inp.fault = none) (spent : settledStatus cfg d answer = .failed) :
      DispatchStep x cfg inp w (.updateStatus d answer now) {w with db:=w.db.setStatus d.eventId .failed}
        (.insertDeadLetter d answer now)
  | settled (live : inp.fault = none) (other : settledStatus cfg d answer ≠ .failed) :
      DispatchStep x cfg inp w (.updateStatus d answer now)
        {w with db:=w.db.setStatus d.eventId (settledStatus cfg d answer)} (.done d.eventId (.ok (.of answer)))
  | insertDeadLetter (live : inp.fault = none)
      (stored : w.db.replaceLetter (d.letter answer (x.nowV7 w.drawn) now) = .ok db) :
      DispatchStep x cfg inp w (.insertDeadLetter d answer now) {w with db:=db,drawn:=w.drawn+1}
        (.done d.eventId (.ok (.of answer)))
  | failed (cause : pc.perform x cfg inp w = .error e) :
      DispatchStep x cfg inp w pc w (.done pc.eventId (.error e))

theorem map_ok {f : α → β} {r : Except ε α} : r.map f = .ok b ↔ ∃ a, r = .ok a ∧ b = f a := by
  cases r <;> simp [Except.map,eq_comm]

theorem map_error {f : α → β} {r : Except ε α} : r.map f = .error e ↔ r = .error e := by
  cases r <;> simp [Except.map]

theorem Delivery.attemptNum_fits (fits : d.attemptCount+1 < 2^32) : Delivery.attemptNum d = d.attemptCount+1 :=
  Nat.mod_eq_of_lt fits

theorem settledStatus_received (same : settledStatus cfg d answer = .received) :
    answer.success = false ∧ d.attemptNum < cfg.maxAttempts.toNat := by
  unfold settledStatus at same
  split at same
  · cases same
  · rename_i failed
    split at same
    · cases same
    · exact ⟨by simpa using failed,by omega⟩

theorem settledStatus_failed (same : settledStatus cfg d answer = .failed) :
    answer.success = false ∧ cfg.maxAttempts.toNat ≤ d.attemptNum := by
  unfold settledStatus at same
  split at same
  · cases same
  · rename_i failed
    split at same
    · rename_i spent
      exact ⟨by simpa using failed,spent⟩
    · cases same

theorem perform_sound (done : ∀ id r, pc ≠ .done id r)
    (moved : pc.perform x cfg inp w = .ok (next,after)) : DispatchStep x cfg inp w pc next after := by
  cases pc with
  | selectEvent eventId =>
    obtain ⟨row,read,equal⟩ := map_ok.mp moved
    cases equal
    obtain ⟨live,found⟩ := statement_ok.mp read
    cases row' : w.db.event eventId with
    | none => simp [row'] at found
    | some r => simp only [row',Except.ok.injEq] at found; cases found; exact .selectEvent live row'
  | selectEndpoint eventId endpointId rawBody =>
    obtain ⟨url,read,equal⟩ := map_ok.mp moved
    cases equal
    obtain ⟨live,found⟩ := statement_ok.mp read
    cases row : w.db.endpoint endpointId with
    | none => simp [row] at found
    | some p => simp only [row,Except.ok.injEq] at found; cases found; exact .selectEndpoint live row
  | countAttempts eventId endpointId rawBody targetUrl =>
    obtain ⟨count,read,equal⟩ := map_ok.mp moved
    cases equal
    obtain ⟨live,found⟩ := statement_ok.mp read
    split at found
    · rename_i fits; cases found; exact .countAttempts live fits
    · cases found
  | checkBreaker d =>
    simp only [DispatchPc.perform,Except.ok.injEq,Prod.mk.injEq] at moved
    obtain ⟨rfl,rfl⟩ := moved
    split
    · rename_i refused; exact .withheld refused
    · rename_i admitted; exact .admitted (by simpa using admitted)
  | requeueDeferred d =>
    obtain ⟨w',read,equal⟩ := map_ok.mp moved
    cases equal
    obtain ⟨live,same⟩ := statement_ok.mp read
    cases same
    exact .requeueDeferred live
  | send d mode => cases moved; exact .send
  | await d mode => cases moved; exact .await
  | updateBreaker d mode answer => cases moved; exact .updateBreaker
  | insertAttempt d answer =>
    obtain ⟨w',read,equal⟩ := map_ok.mp moved
    cases equal
    obtain ⟨live,inserted⟩ := statement_ok.mp read
    obtain ⟨db,stored,rfl⟩ := map_ok.mp inserted
    exact .insertAttempt live stored
  | updateStatus d answer now =>
    obtain ⟨w',read,equal⟩ := map_ok.mp moved
    cases equal
    obtain ⟨live,same⟩ := statement_ok.mp read
    cases same
    by_cases spent : settledStatus cfg d answer = .failed
    · simpa only [spent,if_true] using DispatchStep.exhausted live spent
    · simpa only [spent,if_false] using DispatchStep.settled live spent
  | insertDeadLetter d answer now =>
    obtain ⟨w',read,equal⟩ := map_ok.mp moved
    cases equal
    obtain ⟨live,inserted⟩ := statement_ok.mp read
    obtain ⟨db,stored,rfl⟩ := map_ok.mp inserted
    exact .insertDeadLetter live stored
  | done id r => exact absurd rfl (done id r)

theorem dispatchStep_ok {pc : DispatchPc} (running : ∀ id r, pc ≠ .done id r)
    (performed : pc.perform x cfg inp w = .ok result) : dispatchStep x cfg inp w pc = some result := by
  cases pc with
  | done id r => exact absurd rfl (running id r)
  | _ => simp only [dispatchStep,performed]

theorem dispatchStep_error {pc : DispatchPc} (performed : pc.perform x cfg inp w = .error e) :
    dispatchStep x cfg inp w pc = some (w,.done pc.eventId (.error e)) := by
  cases pc with
  | done id r => cases performed
  | _ => simp only [dispatchStep,performed]

theorem dispatchStep_sound (moved : dispatchStep x cfg inp w pc = some (next,after)) :
    DispatchStep x cfg inp w pc next after := by
  have running : ∀ id r, pc ≠ .done id r := by
    intro id r equal
    subst equal
    simp [dispatchStep] at moved
  cases performed : pc.perform x cfg inp w with
  | ok result =>
    rw [dispatchStep_ok running performed] at moved
    cases Option.some.inj moved
    exact perform_sound running performed
  | error e =>
    rw [dispatchStep_error performed] at moved
    cases Option.some.inj moved
    exact .failed performed

def DispatchPc.Blocked (x : Externals) (w : World) : DispatchPc → Prop
  | .selectEvent id => w.db.event id = none
  | .selectEndpoint _ endpointId _ => w.db.endpoint endpointId = none
  | .countAttempts id _ _ _ => 2^32 ≤ w.db.attemptCount id
  | .insertAttempt d _ => x.nowV7 w.drawn ∈ w.db.deliveryAttempts.rows.map (·.id) ∨ w.db.event d.eventId = none
  | .insertDeadLetter d _ _ => w.db.event d.eventId = none
  | _ => False

theorem perform_error {x : Externals} {cfg : DispatchLoopConfig} {inp : Input} {w : World} {pc : DispatchPc}
    {e : AppError} (live : inp.fault = none) (failed : pc.perform x cfg inp w = .error e) :
    pc.Blocked x w := by
  cases pc with
  | selectEvent eventId =>
    obtain ⟨_,fault,_⟩ | ⟨_,cause,failed,_⟩ := statement_error.mp (map_error.mp failed)
    · simp [live] at fault
    · cases row : w.db.event eventId with
      | none => exact row
      | some r => simp [row] at failed
  | selectEndpoint eventId endpointId rawBody =>
    obtain ⟨_,fault,_⟩ | ⟨_,cause,failed,_⟩ := statement_error.mp (map_error.mp failed)
    · simp [live] at fault
    · cases row : w.db.endpoint endpointId with
      | none => exact row
      | some r => simp [row] at failed
  | countAttempts eventId endpointId rawBody targetUrl =>
    obtain ⟨_,fault,_⟩ | ⟨_,cause,failed,_⟩ := statement_error.mp (map_error.mp failed)
    · simp [live] at fault
    · by_cases fits : w.db.attemptCount eventId < 2^32
      · rw [if_pos fits] at failed; cases failed
      · exact Nat.le_of_not_lt fits
  | requeueDeferred d =>
    obtain ⟨_,fault,_⟩ | ⟨_,cause,failed,_⟩ := statement_error.mp (map_error.mp failed)
    · simp [live] at fault
    · cases failed
  | updateStatus d answer now =>
    obtain ⟨_,fault,_⟩ | ⟨_,cause,failed,_⟩ := statement_error.mp (map_error.mp failed)
    · simp [live] at fault
    · cases failed
  | insertAttempt d answer =>
    obtain ⟨_,fault,_⟩ | ⟨_,cause,failed,_⟩ := statement_error.mp (map_error.mp failed)
    · simp [live] at fault
    · exact Db.insertAttempt_error (map_error.mp failed)
  | insertDeadLetter d answer now =>
    obtain ⟨_,fault,_⟩ | ⟨_,cause,failed,_⟩ := statement_error.mp (map_error.mp failed)
    · simp [live] at fault
    · exact Db.replaceLetter_error (map_error.mp failed)
  | checkBreaker d => cases failed
  | send d mode => cases failed
  | await d mode => cases failed
  | updateBreaker d mode answer => cases failed
  | done id r => cases failed

inductive WorkerStep (x : Externals) (cfg : DispatchLoopConfig) (inp : Input) :
    World → Worker → World → Worker → Prop where
  | claimFailed (e : AppError) : WorkerStep x cfg inp w ⟨.idle,p⟩ w ⟨.finished (.error e),p⟩
  | empty (live : inp.fault = none) (none : w.db.nextReceived = none) :
      WorkerStep x cfg inp w ⟨.idle,p⟩ w ⟨.finished (.ok .idle),p⟩
  | claim (live : inp.fault = none) (next : w.db.nextReceived = some row) :
      WorkerStep x cfg inp w ⟨.idle,p⟩ {w with db:=w.db.setStatus row.id .processing}
        ⟨.dispatching row.id row.endpointId (.selectEvent row.id),p⟩
  | dispatch (moved : DispatchStep x cfg inp w pc next after) :
      WorkerStep x cfg inp w ⟨.dispatching eventId endpointId pc,p⟩ next ⟨.dispatching eventId endpointId after,p⟩
  | returned (result : DispatchResult) :
      WorkerStep x cfg inp w ⟨.dispatching eventId endpointId (.done doneId (.ok result)),p⟩
        (w.log (.dispatchMetric endpointId "success"))
        ⟨.finished (.ok (if result.deferred then .deferred else .settled)),p⟩
  | errored (e : AppError) :
      WorkerStep x cfg inp w ⟨.dispatching eventId endpointId (.done doneId (.error e)),p⟩
        (w.log (.dispatchMetric endpointId "failure")) ⟨.requeueing eventId e,p⟩
  | requeued (live : inp.fault = none) :
      WorkerStep x cfg inp w ⟨.requeueing eventId e,p⟩ {w with db:=w.db.setStatus eventId .received}
        ⟨.finished (.error e),p⟩
  | stranded (fault : inp.fault = some f) :
      WorkerStep x cfg inp w ⟨.requeueing eventId e,p⟩ w ⟨.finished (.error e),p⟩
  | drained : WorkerStep x cfg inp w ⟨.finished (.ok .settled),p⟩ w ⟨.idle,cfg.backoffBase⟩
  | polled : WorkerStep x cfg inp w ⟨.finished (.ok .idle),p⟩ (w.log (.polled cfg.pollInterval)) ⟨.idle,p⟩
  | slept (waits : result = .ok .deferred ∨ ∃ e, result = .error e)
      (delay : decorrelatedJitter cfg.backoffBase cfg.backoffCap p inp.draw = some d) :
      WorkerStep x cfg inp w ⟨.finished result,p⟩ (w.log (.slept d)) ⟨.idle,d⟩

theorem workerStep_claim (moved : workerStep x cfg inp w ⟨.idle,p⟩ = some (next,after)) :
    WorkerStep x cfg inp w ⟨.idle,p⟩ next after := by
  simp only [workerStep,claimNextEvent] at moved
  cases fault : inp.fault with
  | some e =>
    simp only [statement,fault,Option.some.injEq,Prod.mk.injEq] at moved
    obtain ⟨rfl,rfl⟩ := moved
    exact .claimFailed _
  | none =>
    cases head : w.db.nextReceived with
    | none =>
      simp only [statement,fault,head,Option.some.injEq,Prod.mk.injEq] at moved
      obtain ⟨rfl,rfl⟩ := moved
      exact .empty fault head
    | some row =>
      simp only [statement,fault,head,Option.some.injEq,Prod.mk.injEq] at moved
      obtain ⟨rfl,rfl⟩ := moved
      exact .claim fault head

theorem workerStep_finished (moved : workerStep x cfg inp w ⟨.finished result,p⟩ = some (next,after)) :
    WorkerStep x cfg inp w ⟨.finished result,p⟩ next after := by
  cases result with
  | error e =>
    obtain ⟨d,delay,equal⟩ := Option.map_eq_some_iff.mp moved
    cases equal
    exact .slept (.inr ⟨e,rfl⟩) delay
  | ok outcome =>
    cases outcome with
    | settled => cases Option.some.inj moved; exact .drained
    | idle => cases Option.some.inj moved; exact .polled
    | deferred =>
      obtain ⟨d,delay,equal⟩ := Option.map_eq_some_iff.mp moved
      cases equal
      exact .slept (.inl rfl) delay

theorem workerStep_dispatching {pc : DispatchPc} (running : ∀ id r, pc ≠ .done id r) :
    workerStep x cfg inp w ⟨.dispatching eventId endpointId pc,p⟩ =
      (dispatchStep x cfg inp w pc).map fun (next,pc) => (next,⟨.dispatching eventId endpointId pc,p⟩) := by
  cases pc with
  | done id r => exact absurd rfl (running id r)
  | _ => rfl

theorem workerStep_sound (moved : workerStep x cfg inp w worker = some (next,after)) :
    WorkerStep x cfg inp w worker next after := by
  obtain ⟨pc,p⟩ := worker
  cases pc with
  | idle => exact workerStep_claim moved
  | finished result => exact workerStep_finished moved
  | requeueing eventId e =>
    cases fault : inp.fault with
    | some f =>
      simp only [workerStep,requeueEvent,statement,fault,Option.some.injEq,Prod.mk.injEq] at moved
      obtain ⟨rfl,rfl⟩ := moved
      exact .stranded fault
    | none =>
      simp only [workerStep,requeueEvent,statement,fault,Option.some.injEq,Prod.mk.injEq] at moved
      obtain ⟨rfl,rfl⟩ := moved
      exact .requeued fault
  | dispatching eventId endpointId pc =>
    cases pc with
    | done id outcome =>
      cases outcome with
      | ok result => cases Option.some.inj moved; exact .returned result
      | error e => cases Option.some.inj moved; exact .errored e
    | _ =>
      rw [workerStep_dispatching (by rintro id r ⟨⟩)] at moved
      obtain ⟨pair,inner,equal⟩ := Option.map_eq_some_iff.mp moved
      cases equal
      exact .dispatch (dispatchStep_sound inner)

end AetherRelay
