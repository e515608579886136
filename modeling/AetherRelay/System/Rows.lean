import AetherRelay.System.Supply

namespace AetherRelay.System
variable {x : Externals} {cfg : AppConfig} {s t : State} {a : Action} {k : Uuid}

inductive Origin (s : State) (a : Action) (row : IncomingEventRecord) : Prop where
  | call (made : a = .accept row.endpointId row.idempotencyKey row.rawBody row.headers inp) : Origin s a row
  | request (made : a = .ingest r inp) (at' : s.ingests[r]? = some (.accept req row.idempotencyKey provider))
      (parent : row.endpointId = req.endpointId) (body : row.rawBody = req.body) : Origin s a row

-- Everything a step can do to the row of one event. Whatever no rule mentions
-- does not happen: no other step writes the table, and none writes any column
-- but the status of a row that is already there.
inductive RowStep (x : Externals) (s : State) (a : Action) (t : State) (k : Uuid) :
    Option IncomingEventRecord → Option IncomingEventRecord → Prop where
  | same : RowStep x s a t k row row
  | created (drawn : k = x.nowV7 s.world.drawn) (status : row.status = .received) (origin : Origin s a row)
      (logged : t.world.history =
        .accepted k row.endpointId row.idempotencyKey row.rawBody row.headers :: s.world.history) :
      RowStep x s a t k none (some row)
  | removed (cascade : a = .deleteEndpoint headers row.endpointId inp) (settled : row.status.pending = false)
      (gone : t.world.db.endpoint row.endpointId = none) : RowStep x s a t k (some row) none
  | requeued (stale : a = .replay r inp) (at' : s.replays[r]? = some (.updateStatus dlqId k)) :
      RowStep x s a t k (some row) (some (row.withStatus .received))
  | claimed (pass : a = .worker i inp) (free : (s.workers i).pc.stage = .free)
      (head : s.world.db.nextReceived = some row) (holds : (t.workers i).held = some k) :
      RowStep x s a t k (some row) (some (row.withStatus .processing))
  | settled (pass : a = .worker i inp) (holds : (s.workers i).held = some k) (st : EventStatus)
      (final : st ≠ .processing) (dropped : (t.workers i).held = none) :
      RowStep x s a t k (some row) (some (row.withStatus st))

theorem AcceptStep.row {w next : World} (effect : AcceptStep x inp w endpointId key rawBody headers next result)
    (world : s.world = w) (after : t.world = next)
    (origin : ∀ id now, Origin s a ⟨id,endpointId,key,rawBody,headers,.received,now⟩) :
    RowStep x s a t k (s.world.db.event k) (t.world.db.event k) := by
  subst world after
  generalize ended : t.world = next at *
  cases effect with
  | refused e cause => exact .same
  | stored live unused inserted =>
    obtain ⟨missing,_,_,_,_,_,_,rows⟩ := Db.insertEvent_parts inserted
    have read := rows k
    by_cases fresh : x.nowV7 s.world.drawn = k
    · subst fresh
      rw [if_pos rfl] at read
      change RowStep x s a t _ _ (Db.event _ _)
      rw [missing]
      simp only [World.log_db]
      rw [read]
      exact .created rfl rfl (origin _ _) (by rw [ended]; rfl)
    · rw [if_neg fresh] at read
      simp only [World.log_db]
      rw [read]
      exact .same

theorem DeleteStep.row {w next : World} (effect : DeleteStep w endpointId next) (world : s.world = w)
    (after : t.world = next) (cascade : a = .deleteEndpoint headers endpointId inp) :
    RowStep x s a t k (s.world.db.event k) (t.world.db.event k) := by
  subst world
  cases effect with
  | refused => rw [after]; exact .same
  | removed present drained =>
    rw [after,World.log_db,Db.event_deleteEndpoint]
    cases found : s.world.db.event k with
    | none => exact .same
    | some row =>
      by_cases child : row.endpointId = endpointId
      · subst child
        rw [Option.filter_some_neg (by simp)]
        refine .removed cascade (Db.pendingCount_zero drained (Db.event_mem found).1 rfl) ?_
        rw [after,World.log_db,Db.endpoint_deleteEndpoint,if_pos rfl]
      · rw [Option.filter_some_pos (by simpa using child)]
        exact .same

theorem ReplayStep.row {w next : World} (effect : ReplayStep inp w pc next after) (world : s.world = w)
    (ended : t.world = next) (present : s.replays[r]? = some pc) (acted : a = .replay r inp) :
    RowStep x s a t k (s.world.db.event k) (t.world.db.event k) := by
  subst world
  cases effect with
  | requeued live =>
    rename_i dlqId eventId
    rw [ended,Db.event_setStatus]
    split
    · rename_i same
      subst same
      cases s.world.db.event k with
      | none => exact .same
      | some row => exact .requeued acted present
    · exact .same
  | found live row => rw [ended]; exact .same
  | cleared live => rw [ended]; exact .same
  | removed live => rw [ended]; exact .same
  | failed e cause => rw [ended]; exact .same

theorem Moved.row (moved : Moved fault s.world.db before next after) (ended : t.world.db = next)
    (pass : a = .worker i inp) (was : (s.workers i).pc.stage = before) (now : (t.workers i).pc.stage = after) :
    RowStep x s a t k (s.world.db.event k) (t.world.db.event k) := by
  have holds : (s.workers i).held = before.held := by rw [← was]; rfl
  have held : (t.workers i).held = after.held := by rw [← now]; rfl
  subst ended
  generalize ended : t.world.db = next at *
  cases moved with
  | claim live head =>
    rw [Db.event_setStatus]
    split
    · rename_i same
      subst same
      rw [Db.nextReceived_event head]
      exact .claimed pass was head held
    · exact .same
  | settle st final =>
    rw [Db.event_setStatus]
    split
    · rename_i same
      subst same
      cases s.world.db.event k with
      | none => exact .same
      | some row =>
        refine .settled pass holds st final (held.trans ?_)
        split <;> rfl
    · exact .same
  | stay same => rw [Db.event_congr same]; exact .same
  | park same => rw [Db.event_congr same]; exact .same
  | parkFailed gone => exact .same
  | stranded struck => exact .same

theorem Step.row (moved : Step x cfg s a t) (supplied : Supplied x s) (k : Uuid) :
    RowStep x s a t k (s.world.db.event k) (t.world.db.event k) := by
  cases moved with
  | created live effect =>
    cases effect with
    | refused => exact .same
    | stored valid inserted =>
      obtain ⟨_,_,events,_⟩ := Db.insertEndpoint_parts inserted
      simp only [World.log_db,Db.event,events]
      exact .same
  | deleted live effect => exact DeleteStep.row effect rfl rfl rfl
  | accepted live effect => exact AcceptStep.row effect rfl rfl fun _ _ => .call rfl
  | ingestStarted live gates => cases gates; exact .same
  | ingested live present effect =>
    cases effect with
    | accepted inner => exact AcceptStep.row inner rfl rfl fun _ _ => .request rfl present rfl rfl
    | _ => exact .same
  | replayStarted live => exact .same
  | replayed live present effect => exact ReplayStep.row effect rfl rfl present rfl
  | worked live effect =>
    rename_i next after i
    exact Moved.row (effect.moves (supplied.coherent i)) rfl rfl rfl (by simp)
  | killed live => exact .same
  | shutDown live quiet => exact .same
  | restarted down => exact .same

theorem Step.columns (moved : Step x cfg s a t) (supplied : Supplied x s) (spent : Spent x s.world k)
    (found : t.world.db.event k = some event) :
    ∃ old, s.world.db.event k = some old ∧ event = old.withStatus event.status := by
  have change := moved.row supplied k
  rw [found] at change
  generalize before : s.world.db.event k = was at change
  cases change with
  | same => exact ⟨event,rfl,rfl⟩
  | created drawn status origin logged => exact absurd drawn.symm (spent _ (Nat.le_refl _))
  | requeued stale at' => exact ⟨_,rfl,rfl⟩
  | claimed pass free head holds => exact ⟨_,rfl,rfl⟩
  | settled pass holds st final dropped => exact ⟨_,rfl,rfl⟩

theorem Step.worker (moved : Step x cfg s a t) (i : Nat) :
    t.workers i = s.workers i ∨ (a.ends = true ∧ t.workers i = .start (loopConfig cfg)) ∨ ∃ inp, a = .worker i inp ∧
      WorkerStep x (loopConfig cfg) inp s.world (s.workers i) t.world (t.workers i) := by
  cases moved with
  | worked live effect =>
    rename_i inp next after j
    by_cases mine : i = j
    · subst mine
      refine .inr (.inr ⟨inp,rfl,?_⟩)
      simpa using effect
    · exact .inl (Function.update_of_ne mine ..)
  | killed live => exact .inr (.inl ⟨rfl,rfl⟩)
  | shutDown live quiet => exact .inr (.inl ⟨rfl,rfl⟩)
  | ingestStarted live gates => exact .inl rfl
  | _ => exact .inl rfl

theorem Step.others (moved : Step x cfg s (.worker i inp) t) (other : j ≠ i) : t.workers j = s.workers j := by
  rcases moved.worker j with same | ⟨ends,_⟩ | ⟨_,acted,_⟩
  · exact same
  · cases ends
  · cases acted
    exact absurd rfl other

inductive StepLog (x : Externals) (cfg : AppConfig) (s : State) (a : Action) (t : State) :
    List Happening → Prop where
  | silent : StepLog x cfg s a t []
  | created (asked : a = .createEndpoint headers req inp) (drawn : row.id = x.nowV7 s.world.drawn)
      (inserted : s.world.db.insertEndpoint row = .ok t.world.db) :
      StepLog x cfg s a t [.endpointCreated row]
  | deleted (asked : a = .deleteEndpoint headers endpointId inp) : StepLog x cfg s a t [.endpointDeleted endpointId]
  | received (arrived : a = .startIngest req inp) : StepLog x cfg s a t [.ingestReceived req]
  | accepted (called : ∀ i inp, a ≠ .worker i inp) (unused : s.world.db.eventByKey endpointId key = none)
      (inserted : s.world.db.insertEvent
        ⟨x.nowV7 s.world.drawn,endpointId,key,body,headers,.received,now⟩ = .ok t.world.db) :
      StepLog x cfg s a t [.accepted (x.nowV7 s.world.drawn) endpointId key body headers]
  | rejected (called : ∀ i inp, a ≠ .worker i inp) (endpointId : Uuid) (key : String) (e : AppError) :
      StepLog x cfg s a t [.rejected endpointId key e]
  | replayed (asked : a = .replay r inp) (eventId : Uuid) : StepLog x cfg s a t [.replayed eventId]
  | posted (pass : a = .worker i inp) (at' : (s.workers i).pc = .dispatching claimed parent (.send d mode)) :
      StepLog x cfg s a t [.posted d.eventId d.endpointId d.targetUrl d.rawBody]
  | answered (pass : a = .worker i inp) (at' : (s.workers i).pc = .dispatching claimed parent (.await d mode)) :
      StepLog x cfg s a t [.answered d.eventId inp.answer]
  | metric (pass : a = .worker i inp) (endpointId : Uuid) (label : String) :
      StepLog x cfg s a t [.dispatchMetric endpointId label]
  | slept (pass : a = .worker i inp) (at' : (s.workers i).pc = .finished result)
      (waits : result = .ok .deferred ∨ ∃ e, result = .error e)
      (delayed : decorrelatedJitter (loopConfig cfg).backoffBase (loopConfig cfg).backoffCap
        (s.workers i).prevSleep inp.draw = some delay) : StepLog x cfg s a t [.slept delay]
  | polled (pass : a = .worker i inp) (delay : Duration) : StepLog x cfg s a t [.polled delay]

theorem AcceptStep.log {w next : World} (effect : AcceptStep x inp w endpointId key rawBody headers next result)
    (world : s.world = w) (after : t.world = next) (called : ∀ i inp, a ≠ .worker i inp) :
    ∃ new, StepLog x cfg s a t new ∧ next.history = new ++ s.world.history := by
  subst world
  have db : t.world.db = next.db := congrArg World.db after
  cases effect with
  | stored live unused inserted => exact ⟨_,.accepted called unused (inserted.trans (congrArg Except.ok db.symm)),rfl⟩
  | refused e cause => exact ⟨_,.rejected called endpointId key e,rfl⟩

theorem WorkerStep.log {next : World} (effect : WorkerStep x (loopConfig cfg) inp s.world worker next after)
    (pass : a = .worker i inp) (mine : s.workers i = worker) :
    ∃ new, StepLog x cfg s a t new ∧ next.history = new ++ s.world.history := by
  subst mine
  generalize mine : s.workers i = worker at effect
  have at' : (s.workers i).pc = worker.pc := by rw [mine]
  have slept : (s.workers i).prevSleep = worker.prevSleep := by rw [mine]
  cases effect with
  | dispatch moved =>
    cases moved with
    | send => exact ⟨_,.posted pass at',rfl⟩
    | await => exact ⟨_,.answered pass at',rfl⟩
    | _ => exact ⟨_,.silent,rfl⟩
  | returned result => exact ⟨_,.metric pass _ _,rfl⟩
  | errored e => exact ⟨_,.metric pass _ _,rfl⟩
  | polled => exact ⟨_,.polled pass _,rfl⟩
  | slept waits delay => exact ⟨_,.slept pass at' waits (slept ▸ delay),rfl⟩
  | _ => exact ⟨_,.silent,rfl⟩

theorem Step.log (moved : Step x cfg s a t) : ∃ new, StepLog x cfg s a t new ∧ t.world.history = new ++ s.world.history := by
  cases moved with
  | created live effect =>
    cases effect with
    | refused => exact ⟨_,.silent,rfl⟩
    | stored valid inserted => exact ⟨_,.created rfl rfl inserted,rfl⟩
  | deleted live effect =>
    cases effect with
    | refused => exact ⟨_,.silent,rfl⟩
    | removed present drained => exact ⟨_,.deleted rfl,rfl⟩
  | accepted live effect => exact AcceptStep.log effect rfl rfl (by simp)
  | ingestStarted live gates => cases gates; exact ⟨_,.received rfl,rfl⟩
  | ingested live present effect =>
    cases effect with
    | accepted inner => exact AcceptStep.log inner rfl rfl (by simp)
    | _ => exact ⟨_,.silent,rfl⟩
  | replayed live present effect =>
    cases effect with
    | removed live => exact ⟨_,.replayed rfl _,rfl⟩
    | _ => exact ⟨_,.silent,rfl⟩
  | worked live effect => exact WorkerStep.log effect rfl rfl
  | _ => exact ⟨_,.silent,rfl⟩

theorem Step.posted (moved : Step x cfg s a t)
    (logged : t.world.history = .posted e endpointId url body :: s.world.history) :
    ∃ i inp claimed parent d mode, a = .worker i inp ∧
      (s.workers i).pc = .dispatching claimed parent (.send d mode) ∧
      e = d.eventId ∧ endpointId = d.endpointId ∧ url = d.targetUrl ∧ body = d.rawBody := by
  obtain ⟨new,log,history⟩ := moved.log
  rw [logged] at history
  cases log with
  | posted pass at' =>
    simp only [List.cons_append,List.nil_append,List.cons.injEq,Happening.posted.injEq,and_true] at history
    exact ⟨_,_,_,_,_,_,pass,at',history⟩
  | silent => simp at history
  | _ => simp at history

theorem Step.history (moved : Step x cfg s a t) (member : h ∈ s.world.history) : h ∈ t.world.history := by
  obtain ⟨new,_,history⟩ := moved.log
  rw [history]
  exact List.mem_append_right _ member

inductive EndpointStep (x : Externals) (s : State) (a : Action) (t : State) (k : Uuid) :
    Option EndpointRecord → Option EndpointRecord → Prop where
  | same : EndpointStep x s a t k row row
  | created (drawn : k = x.nowV7 s.world.drawn) (named : row.id = k)
      (logged : t.world.history = .endpointCreated row :: s.world.history) : EndpointStep x s a t k none (some row)
  | removed (asked : a = .deleteEndpoint headers k inp) : EndpointStep x s a t k (some row) none

theorem AcceptStep.endpoints {w next : World}
    (effect : AcceptStep x inp w endpointId key rawBody headers next result) : next.db.endpoints = w.db.endpoints := by
  cases effect with
  | refused e cause => rfl
  | stored live unused inserted =>
    obtain ⟨_,_,_,_,endpoints,_⟩ := Db.insertEvent_parts inserted
    exact endpoints

theorem DispatchStep.endpoints {w next : World} (effect : DispatchStep x loop inp w pc next after) :
    next.db.endpoints = w.db.endpoints := by
  cases effect with
  | insertAttempt live stored =>
    obtain ⟨_,_,endpoints,_⟩ := Db.insertAttempt_parts stored
    exact endpoints
  | insertDeadLetter live stored =>
    obtain ⟨_,_,endpoints,_⟩ := Db.replaceLetter_parts stored
    exact endpoints
  | _ => rfl

theorem WorkerStep.endpoints {w next : World} (effect : WorkerStep x loop inp w worker next after) :
    next.db.endpoints = w.db.endpoints := by
  cases effect with
  | dispatch moved => exact DispatchStep.endpoints moved
  | _ => rfl

theorem Step.endpoint (moved : Step x cfg s a t) (k : Uuid) :
    EndpointStep x s a t k (s.world.db.endpoint k) (t.world.db.endpoint k) := by
  have kept : t.world.db.endpoints = s.world.db.endpoints →
      EndpointStep x s a t k (s.world.db.endpoint k) (t.world.db.endpoint k) := by
    intro same
    rw [Db.endpoint,Db.endpoint,same]
    exact .same
  cases moved with
  | created live effect =>
    cases effect with
    | refused => exact .same
    | @stored db valid inserted =>
      obtain ⟨missing,_,_,_,_,rows⟩ := Db.insertEndpoint_parts inserted
      have read := rows k
      simp only [World.log_db]
      by_cases fresh : x.nowV7 s.world.drawn = k
      · rw [if_pos fresh] at read
        subst fresh
        rw [read,missing]
        exact .created rfl rfl rfl
      · rw [if_neg fresh] at read
        rw [read]
        exact .same
  | deleted live effect =>
    cases effect with
    | refused => exact .same
    | removed present drained =>
      simp only [World.log_db,Db.endpoint_deleteEndpoint]
      split
      · rename_i same
        subst same
        rw [present]
        exact .removed rfl
      · exact .same
  | accepted live effect => exact kept (AcceptStep.endpoints effect)
  | ingestStarted live gates => cases gates; exact .same
  | ingested live present effect =>
    cases effect with
    | accepted inner => exact kept (AcceptStep.endpoints inner)
    | _ => exact .same
  | replayStarted live => exact .same
  | replayed live present effect => exact kept (by cases effect <;> rfl)
  | worked live effect => exact kept (WorkerStep.endpoints effect)
  | killed live => exact .same
  | shutDown live quiet => exact .same
  | restarted down => exact .same

end AetherRelay.System
