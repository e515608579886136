import AetherRelay.Worker.Steps

namespace AetherRelay

-- What a pass stands for in the queue: nothing, a claimed row it has still to
-- settle or give back, or a row it has marked FAILED and whose letter comes next.
inductive Stage where
  | free
  | holding (eventId : Uuid)
  | parking (eventId : Uuid)
deriving DecidableEq

namespace Stage

def held : Stage → Option Uuid
  | .holding e => some e
  | _ => none

def engaged : Stage → Option Uuid
  | .holding e | .parking e => some e
  | .free => none

@[simp] theorem held_some {stage : Stage} : stage.held = some e ↔ stage = .holding e := by
  cases stage <;> simp [held]

end Stage

def DispatchPc.stage : DispatchPc → Stage
  | .insertDeadLetter d _ _ => .parking d.eventId
  | .done _ (.ok _) => .free
  | pc => .holding pc.eventId

def WorkerPc.stage : WorkerPc → Stage
  | .idle | .finished _ => .free
  | .dispatching _ _ pc => pc.stage
  | .requeueing e _ => .holding e

def Worker.held (worker : Worker) : Option Uuid := worker.pc.stage.held
def Worker.engaged (worker : Worker) : Option Uuid := worker.pc.stage.engaged

@[simp] theorem Worker.held_start (cfg : DispatchLoopConfig) : (Worker.start cfg).held = none := rfl
@[simp] theorem Worker.engaged_start (cfg : DispatchLoopConfig) : (Worker.start cfg).engaged = none := rfl

def Worker.Coherent (worker : Worker) : Prop :=
  match worker.pc with
  | .dispatching e _ pc => pc.eventId = e
  | _ => True

theorem DispatchStep.same_event (effect : DispatchStep x cfg inp w pc next after) : after.eventId = pc.eventId := by
  cases effect <;> rfl

theorem DispatchPc.engaged_eventId {pc : DispatchPc} (engaged : pc.stage.engaged = some e) : pc.eventId = e := by
  cases pc with
  | done id result =>
    cases result with
    | ok value => cases engaged
    | error cause => exact Option.some.inj engaged
  | _ => exact Option.some.inj engaged

theorem DispatchPc.engaged_running {pc : DispatchPc} (running : ∀ k result, pc ≠ .done k result) :
    pc.stage.engaged = some pc.eventId := by
  cases pc with
  | done k result => exact absurd rfl (running k result)
  | _ => rfl

theorem DispatchStep.engaged (effect : DispatchStep x cfg inp w pc next after) :
    pc.stage.engaged = some pc.eventId := by
  apply DispatchPc.engaged_running
  intro k result same
  subst same
  cases effect with | failed cause => cases cause

theorem WorkerStep.coherent (effect : WorkerStep x cfg inp w worker next after) (old : worker.Coherent) :
    after.Coherent := by
  cases effect with
  | dispatch moved => exact moved.same_event.trans old
  | claim live next => exact rfl
  | _ => trivial

inductive Moved (fault : Option Fault) (db : Db) : Stage → Db → Stage → Prop where
  | claim (live : fault = none) (head : db.nextReceived = some row) :
      Moved fault db .free (db.setStatus row.id .processing) (.holding row.id)
  | stay (same : next.incomingEvents = db.incomingEvents) : Moved fault db stage next stage
  | settle (st : EventStatus) (final : st ≠ .processing) :
      Moved fault db (.holding e) (db.setStatus e st) (if st = .failed then .parking e else .free)
  | park (same : next.incomingEvents = db.incomingEvents) : Moved fault db (.parking e) next .free
  | parkFailed (gone : fault = none → db.event e = none) : Moved fault db (.parking e) db (.holding e)
  | stranded (struck : fault ≠ none) : Moved fault db (.holding e) db .free

theorem DispatchStep.moves {w : World} (effect : DispatchStep x cfg inp w pc next after) :
    Moved inp.fault w.db pc.stage next.db after.stage := by
  cases effect with
  | requeueDeferred live => exact .settle .received (by decide)
  | exhausted live spent => exact .settle .failed (by decide)
  | @settled d answer _ now live other =>
    have final : settledStatus cfg d answer ≠ .processing := by
      unfold settledStatus; split
      · decide
      · split <;> decide
    have moved : Moved inp.fault w.db (.holding d.eventId) (w.db.setStatus d.eventId (settledStatus cfg d answer))
        (if settledStatus cfg d answer = .failed then .parking d.eventId else .free) := .settle _ final
    rwa [if_neg other] at moved
  | insertAttempt live stored =>
    obtain ⟨_,_,_,same,_⟩ := Db.insertAttempt_parts stored
    exact .stay same
  | insertDeadLetter live stored =>
    obtain ⟨_,_,_,same,_⟩ := Db.replaceLetter_parts stored
    exact .park same
  | failed cause =>
    cases pc with
    | insertDeadLetter d answer now => exact .parkFailed fun live => perform_error live cause
    | done id result => cases cause
    | _ => exact .stay rfl
  | _ => exact .stay rfl

theorem WorkerStep.moves (effect : WorkerStep x cfg inp w worker next after) (coherent : worker.Coherent) :
    Moved inp.fault w.db worker.pc.stage next.db after.pc.stage := by
  cases effect with
  | claim live head => exact .claim live head
  | dispatch moved => exact moved.moves
  | @errored _ eventId _ doneId _ e =>
    have same : doneId = eventId := coherent
    subst same
    exact .stay rfl
  | requeued live => exact .settle .received (by decide)
  | stranded fault => exact .stranded (by simp [fault])
  | _ => exact .stay rfl

inductive Concerns (x : Externals) (cfg : DispatchLoopConfig) (inp : Input) (w : World) :
    Uuid → WorkerPc → World → WorkerPc → Prop where
  | claim (live : inp.fault = none) (head : w.db.nextReceived = some row) :
      Concerns x cfg inp w row.id .idle {w with db:=w.db.setStatus row.id .processing}
        (.dispatching row.id row.endpointId (.selectEvent row.id))
  | dispatch (moved : DispatchStep x cfg inp w pc next after) :
      Concerns x cfg inp w pc.eventId (.dispatching claimed parent pc) next (.dispatching claimed parent after)
  | errored (cause : AppError) :
      Concerns x cfg inp w e (.dispatching e parent (.done e (.error cause)))
        (w.log (.dispatchMetric parent "failure")) (.requeueing e cause)
  | requeued (live : inp.fault = none) :
      Concerns x cfg inp w e (.requeueing e cause) {w with db:=w.db.setStatus e .received} (.finished (.error cause))
  | stranded (fault : inp.fault = some f) :
      Concerns x cfg inp w e (.requeueing e cause) w (.finished (.error cause))

theorem WorkerStep.concerns {worker done : Worker} (effect : WorkerStep x cfg inp w worker next done)
    (coherent : worker.Coherent) (touched : worker.engaged = some e ∨ done.engaged = some e) :
    Concerns x cfg inp w e worker.pc next done.pc := by
  cases effect with
  | claim live head =>
    rcases touched with before | after
    · cases before
    · cases after
      exact .claim live head
  | @dispatch _ pc _ after _ _ _ moved =>
    have same : pc.eventId = e := by
      rcases touched with before | now
      · exact DispatchPc.engaged_eventId before
      · exact moved.same_event.symm.trans (DispatchPc.engaged_eventId now)
    subst same
    exact .dispatch moved
  | @errored _ claimed _ id _ cause =>
    have coherent : id = claimed := coherent
    subst coherent
    rcases touched with before | after
    · cases before
      exact .errored cause
    · cases after
      exact .errored cause
  | requeued live =>
    rcases touched with before | after
    · cases before
      exact .requeued live
    · cases after
  | stranded fault =>
    rcases touched with before | after
    · cases before
      exact .stranded fault
    · cases after
  | _ =>
    rcases touched with before | after
    · cases before
    · cases after

theorem Moved.engages (moved : Moved fault db before next after) (engaged : after.engaged = some e) :
    before.engaged = some e ∨ (before = .free ∧ ∃ row, db.nextReceived = some row ∧ row.id = e) := by
  cases moved with
  | claim live head => exact .inr ⟨rfl,_,head,Option.some.inj engaged⟩
  | settle st final =>
    split at engaged
    · exact .inl engaged
    · cases engaged
  | stay same => exact .inl engaged
  | parkFailed gone => exact .inl engaged
  | park same => cases engaged
  | stranded struck => cases engaged

theorem Moved.event_none (moved : Moved fault db before next after) : next.event e = none ↔ db.event e = none := by
  have same : ∀ {k st}, (db.setStatus k st).event e = none ↔ db.event e = none := by
    intro k st
    rw [Db.event_setStatus]
    split <;> simp
  cases moved with
  | claim live head => exact same
  | stay equal => rw [Db.event_congr equal]
  | settle st final => exact same
  | park equal => rw [Db.event_congr equal]
  | parkFailed gone => exact Iff.rfl
  | stranded struck => exact Iff.rfl

end AetherRelay
