import AetherRelay.System.Settlement

namespace AetherRelay

structure Oldest (db : Db) (row : IncomingEventRecord) : Prop where
  stored : row ∈ db.incomingEvents.rows
  waiting : row.status = .received
  first : ∀ other ∈ db.incomingEvents.rows, other.status = .received →
    toLex (row.createdAt,row.id) ≤ toLex (other.createdAt,other.id)

def statusAfter (cfg : DispatchLoopConfig) (number : Nat) (answer : Answer) : EventStatus :=
  if answer.success then .delivered
  else if cfg.maxAttempts.toNat ≤ number then .failed
  else .received

-- What one delivery writes, table by table. A row that is not mentioned here is
-- in the table after the pass exactly when it was there before.
structure DeliveryWrites (cfg : DispatchLoopConfig) (answer : Answer) (row : IncomingEventRecord) (before after : Db) :
    Prop where
  endpoints : after.endpoints = before.endpoints
  events : after.incomingEvents.rows = before.incomingEvents.rows.map fun e =>
    if e.id = row.id then e.withStatus (statusAfter cfg (before.attemptCount row.id + 1) answer) else e
  attempts : ∃ a, after.deliveryAttempts.rows = before.deliveryAttempts.rows ++ [a] ∧ a.eventId = row.id ∧
    a.attemptNumber = before.attemptCount row.id + 1 ∧ a.responseStatus = answer.statusCode ∧
    a.errorMessage = answer.errorMsg
  kept : statusAfter cfg (before.attemptCount row.id + 1) answer ≠ .failed →
    after.deadLetterQueue = before.deadLetterQueue
  filed : statusAfter cfg (before.attemptCount row.id + 1) answer = .failed → ∃ letter,
    after.deadLetterQueue.rows = before.deadLetterQueue.rows.filter (fun d => d.eventId ≠ row.id) ++ [letter] ∧
    letter.eventId = row.id ∧ letter.endpointId = row.endpointId ∧
    letter.errorReason = answer.errorMsg.getD "Max attempts exceeded" ∧
    letter.lastAttemptStatus = answer.statusCode

def admission (cfg : DispatchLoopConfig) (inp : Point → Input) (w : World) (endpointId : Uuid) :
    CircuitBreaker × Bool :=
  (w.breakers.entry cfg.circuitFailureThreshold cfg.circuitRecovery endpointId).canAttempt (inp .checkBreaker).instant

inductive PassEffect (cfg : DispatchLoopConfig) (inp : Point → Input) (w : World) :
    World → Except AppError DispatchOutcome → Prop where
  | idle (empty : ∀ e ∈ w.db.incomingEvents.rows, e.status ≠ .received) : PassEffect cfg inp w w (.ok .idle)
  | deferred (head : Oldest w.db row) (refused : (admission cfg inp w row.endpointId).2 = false)
      (db : after.db = w.db)
      (breakers : after.breakers =
        Function.update w.breakers row.endpointId (some (admission cfg inp w row.endpointId).1))
      (history : after.history = .dispatchMetric row.endpointId "success" :: w.history) :
      PassEffect cfg inp w after (.ok .deferred)
  | settled (head : Oldest w.db row) (admitted : (admission cfg inp w row.endpointId).2 = true)
      (parent : w.db.endpoint row.endpointId = some endpoint)
      (writes : DeliveryWrites cfg (inp .await).answer row w.db after.db)
      (breakers : after.breakers = Function.update w.breakers row.endpointId
        (some ((admission cfg inp w row.endpointId).1.record (inp .await).answer.success (inp .updateBreaker).instant)))
      (history : after.history = .dispatchMetric row.endpointId "success" :: .answered row.id (inp .await).answer ::
        .posted row.id row.endpointId endpoint.targetUrl row.rawBody :: w.history) :
      PassEffect cfg inp w after (.ok .settled)

def RoomForOne (db : Db) : Prop := ∀ row, db.nextReceived = some row → db.attemptCount row.id + 1 < 2^32

section
variable {x : Externals} {cfg : DispatchLoopConfig} {w : World} {row : IncomingEventRecord}

theorem Db.nextReceived_head {db : Db} (next : db.nextReceived = some row) : Oldest db row := by
  obtain ⟨stored,waiting,first⟩ := Db.nextReceived_exact.mp next
  exact ⟨stored,waiting,first⟩

theorem checkBreaker_admission (cfg : DispatchLoopConfig) (inp : Point → Input) (w : World) (endpointId : Uuid) :
    checkBreaker cfg w (inp .checkBreaker) endpointId =
      ({w with breakers:=Function.update w.breakers endpointId (some (admission cfg inp w endpointId).1)},
        !(admission cfg inp w endpointId).2) := rfl

theorem exchange_history (inp : Point → Input) (w : World) (d : Delivery) :
    (exchange cfg inp w d).history = .answered d.eventId (inp .await).answer ::
      .posted d.eventId d.endpointId d.targetUrl d.rawBody :: w.history := rfl

theorem exchange_breakers (inp : Point → Input) (w : World) (d : Delivery) :
    (exchange cfg inp w d).breakers = Function.update w.breakers d.endpointId
      (some ((admission cfg inp w d.endpointId).1.record (inp .await).answer.success (inp .updateBreaker).instant)) := by
  simp [exchange,updateBreaker,Breakers.record,checkBreaker_admission]

theorem Recorded.history (recorded : Recorded x cfg sent d answer after) : after.history = sent.history := by
  cases recorded <;> rfl

theorem Recorded.breakers (recorded : Recorded x cfg sent d answer after) : after.breakers = sent.breakers := by
  cases recorded <;> rfl

theorem World.Supplied.filtered {letter : DeadLetter} (supplied : w.Supplied x)
    (fresh : letter.id = x.nowV7 (w.drawn+1)) :
    w.db.deadLetterQueue.rows.filter (fun d => d.id ≠ letter.id && d.eventId ≠ letter.eventId) =
      w.db.deadLetterQueue.rows.filter (fun d => d.eventId ≠ letter.eventId) := by
  apply List.filter_congr
  intro d stored
  have known : d.id ∈ w.db.ids := by
    simp only [Db.ids,List.mem_append]
    exact .inr (List.mem_map_of_mem stored)
  have other : d.id ≠ letter.id := by
    rw [fresh]
    exact (supplied.store d.id known (w.drawn+1) (Nat.le_succ _)).symm
  simp [other]

theorem Db.setStatus_rows {db claimed : Db} {id : Uuid}
    (events : claimed.incomingEvents = (db.setStatus id between).incomingEvents) :
    (claimed.setStatus id st).incomingEvents.rows =
      db.incomingEvents.rows.map fun e => if e.id = id then e.withStatus st else e := by
  have last : (claimed.setStatus id st).incomingEvents = ((db.setStatus id between).setStatus id st).incomingEvents := by
    simp only [setStatus,events]
  rw [last,setStatus_setStatus]
  rfl

theorem Recorded.writes (recorded : Recorded x cfg sent d answer after) (supplied : w.Supplied x)
    (claimed : sent.db = w.db.setStatus d.eventId .processing) (drawn : sent.drawn = w.drawn)
    (event : d.eventId = row.id) (target : d.endpointId = row.endpointId)
    (count : d.attemptCount = w.db.attemptCount row.id) (room : w.db.attemptCount row.id + 1 < 2^32) :
    DeliveryWrites cfg answer row w.db after.db := by
  have number : d.attemptNum = w.db.attemptCount row.id + 1 := by
    rw [← count] at room ⊢
    exact Delivery.attemptNum_fits room
  have status : settledStatus cfg d answer = statusAfter cfg (w.db.attemptCount row.id + 1) answer := by
    rw [settledStatus,number]
    rfl
  rw [event] at claimed
  cases recorded with
  | @kept db now stored other =>
    obtain ⟨_,attempts,endpoints,events,letters⟩ := Db.insertAttempt_parts stored
    rw [claimed] at attempts endpoints events letters
    rw [status] at other
    constructor
    · exact endpoints
    · rw [event,status]
      exact Db.setStatus_rows events
    · exact ⟨_,attempts,event,number,rfl,rfl⟩
    · intro _
      exact letters
    · intro spent
      exact absurd spent other
  | @parked db last now stored spent filed =>
    obtain ⟨_,attempts,endpoints,events,letters⟩ := Db.insertAttempt_parts stored
    obtain ⟨_,queue,parents,rows,tried⟩ := Db.replaceLetter_parts filed
    rw [claimed] at attempts endpoints events letters
    have fresh : (d.letter answer (x.nowV7 (sent.drawn+1)) now).id = x.nowV7 (w.drawn+1) := by rw [← drawn]; rfl
    have replaced := supplied.filtered fresh
    rw [status] at spent
    constructor
    · exact parents.trans endpoints
    · rw [rows,event,spent]
      exact Db.setStatus_rows events
    · rw [tried]
      exact ⟨_,attempts,event,number,rfl,rfl⟩
    · intro other
      exact absurd spent other
    · intro _
      refine ⟨d.letter answer (x.nowV7 (sent.drawn+1)) now,?_,event,target,rfl,rfl⟩
      rw [queue,Db.letters_setStatus,letters,← event]
      exact congrArg (· ++ [_]) replaced

theorem runDispatchOnce_effect {inp : Point → Input} (supplied : w.Supplied x) (clean : Clean inp)
    (room : RoomForOne w.db) :
    PassEffect cfg inp w (runDispatchOnce x cfg inp w).1 (runDispatchOnce x cfg inp w).2 := by
  have fits : ∀ row, w.db.nextReceived = some row → w.db.attemptCount row.id < 2^32 :=
    fun row head => Nat.lt_of_succ_lt (room row head)
  cases head : w.db.nextReceived with
  | none =>
    have claim : claimNextEvent w (inp .claim) = .ok (w,none) := statement_live (clean _) (by rw [head])
    simp only [runDispatchOnce,claim]
    exact .idle (Db.nextReceived_none.mp head)
  | some row =>
    cases admitted : (admission cfg inp w row.endpointId).2 with
    | false =>
      have refused : (checkBreaker cfg w (inp .checkBreaker) row.endpointId).2 = true := by
        rw [checkBreaker_admission,admitted]
        rfl
      rw [runDispatchOnce_refused clean.failsLate head (fits row head) refused,checkBreaker_admission]
      exact .deferred (Db.nextReceived_head head) admitted rfl rfl rfl
    | true =>
      have open' : (checkBreaker cfg w (inp .checkBreaker) row.endpointId).2 = false := by
        rw [checkBreaker_admission,admitted]
        rfl
      obtain ⟨parent,present⟩ := Db.endpoint_of_event (Db.nextReceived_event head)
      obtain ⟨after,recorded,passed⟩ :=
        runDispatchOnce_attempted (x:=x) clean head present (fits row head) open' supplied.fresh_attempt
      rw [passed]
      refine .settled (Db.nextReceived_head head) admitted present ?_ ?_ ?_
      · exact recorded.writes supplied (exchange_db ..) (exchange_drawn ..) rfl rfl rfl (room row head)
      · rw [World.log_breakers,recorded.breakers,exchange_breakers]
        rfl
      · rw [World.log_history,recorded.history,exchange_history]
        rfl

theorem operations_leave_room {cfg : AppConfig}
    (path : Transition.Run (Operation.step x cfg) (fun _ op => op.Clean) World.new operations w) : RoomForOne w.db := by
  intro row head
  obtain ⟨ledger,shows⟩ := (operations_shown path).2 row.id
  obtain ⟨failures,rfl⟩ := shows.of_received (Db.nextReceived_waiting head)
  have length : w.db.attemptCount row.id = failures.answers.length := shows.2.1.length
  have room := failures.room
  have fits := (DispatchLoopConfig.fromAppConfig cfg).budget_fits
  omega

-- One pass from any state the relay can be in, whatever is answered and whatever
-- the clocks say.
theorem run_dispatch_once_effect {cfg : AppConfig} {s t : System.State} {actions : List System.Action}
    (start : System.Booted x cfg s) (path : Transition.Run (System.step x cfg) (fun _ _ => True) s actions t) :
    (∀ inp, Clean inp → RoomForOne t.world.db →
      PassEffect (System.loopConfig cfg) inp t.world (runDispatchOnce x (System.loopConfig cfg) inp t.world).1
        (runDispatchOnce x (System.loopConfig cfg) inp t.world).2) ∧
    ∀ operations w, Transition.Run (Operation.step x cfg) (fun _ op => op.Clean) World.new operations w →
      w.db = t.world.db → RoomForOne t.world.db := by
  have supplied := start.supplied_after path
  constructor
  · intro inp clean room
    exact runDispatchOnce_effect supplied.world clean room
  · intro operations w path same
    rw [← same]
    exact operations_leave_room path

theorem PassEffect.delivered (effect : PassEffect cfg inp w after (.ok .settled)) :
    ∃ row, Oldest w.db row ∧ DeliveryWrites cfg (inp .await).answer row w.db after.db := by
  cases effect with
  | settled head admitted parent writes breakers history => exact ⟨_,head,writes⟩

theorem Recorded.tried (recorded : Recorded x cfg sent d answer after) :
    ∃ a, after.db.deliveryAttempts.rows = sent.db.deliveryAttempts.rows ++ [a] ∧ a.attemptNumber = d.attemptNum := by
  cases recorded with
  | @kept db now stored other =>
    obtain ⟨_,attempts,_⟩ := Db.insertAttempt_parts stored
    exact ⟨_,attempts,rfl⟩
  | @parked db last now stored spent filed =>
    obtain ⟨_,attempts,_⟩ := Db.insertAttempt_parts stored
    obtain ⟨_,_,_,_,tried⟩ := Db.replaceLetter_parts filed
    rw [tried]
    exact ⟨_,attempts,rfl⟩

theorem admission_new (inp : Point → Input) (none : w.breakers endpointId = none) :
    (admission cfg inp w endpointId).2 = true := by
  simp [admission,Breakers.entry,none,CircuitBreaker.new,CircuitBreaker.canAttempt,CircuitBreaker.observe]

end

def quiet200 : Point → Input := fun _ => ⟨none,0,0,.response .ok,0⟩

theorem quiet200_clean : Clean quiet200 := fun _ => rfl

theorem run_dispatch_once_effect_delivered :
    ∃ t, Transition.exec (System.step .tabletop .default) (System.boot .default) System.registerAndAccept = some t ∧
      PassEffect (System.loopConfig .default) quiet200 t.world
        (runDispatchOnce .tabletop (System.loopConfig .default) quiet200 t.world).1 (.ok .settled) := by
  have ran : (Transition.exec (System.step .tabletop .default) (System.boot .default) System.registerAndAccept).map
      (fun t => (t.world.db.nextReceived.map (·.id),t.world.db.attemptCount "11",
        (runDispatchOnce .tabletop (System.loopConfig .default) quiet200 t.world).2)) =
      some (some "11",0,.ok .settled) := by decide +kernel
  obtain ⟨t,reached,seen⟩ := Option.map_eq_some_iff.mp ran
  simp only [Prod.mk.injEq] at seen
  obtain ⟨first,none,outcome⟩ := seen
  have path := Transition.Run.check (fun _ _ => True) reached (.all fun _ _ => trivial)
  have room : RoomForOne t.world.db := by
    intro row head
    rw [head] at first
    have named : row.id = "11" := Option.some.inj first
    rw [named]
    omega
  have effect := (run_dispatch_once_effect (System.boot_booted _ _) path).1 quiet200 quiet200_clean room
  rw [outcome] at effect
  exact ⟨t,reached,effect⟩

structure Piled (n : Nat) (t : System.State) : Prop where
  running : t.running = true
  idle : t.workers 0 = .start (System.loopConfig .default)
  breakers : ∀ endpointId, t.world.breakers endpointId = none
  queue : t.world.db.nextReceived.map (·.id) = some "11"
  count : t.world.db.attemptCount "11" = n

theorem Piled.head (piled : Piled n t) : ∃ row, t.world.db.nextReceived = some row ∧ row.id = "11" :=
  Option.map_eq_some_iff.mp piled.queue

theorem Piled.of_restart {u : System.State} (running : u.running = true)
    (queue : u.world.db.nextReceived.map (·.id) = some "11") (count : u.world.db.attemptCount "11" = n) :
    ∃ v, Transition.Reaches (System.step .tabletop .default) u v ∧ Piled n v := by
  have down : System.step .tabletop .default u .kill = some (System.terminate .default u) := by
    simp only [System.step,running,if_true,System.serve]
  have up : System.step .tabletop .default (System.terminate .default u) .restart =
      some {System.terminate .default u with running:=true} := rfl
  exact ⟨_,.head _ down (.head _ up .refl),rfl,rfl,fun _ => rfl,queue,count⟩

theorem Piled.struck (piled : Piled n t) (supplied : System.Supplied .tabletop t) (few : n < 2^32) :
    let after := (runDispatchOnce .tabletop (System.loopConfig .default) (struckAt .updateStatus) t.world).1.db
    after.nextReceived = t.world.db.nextReceived ∧ after.attemptCount "11" = n+1 := by
  obtain ⟨row,head,named⟩ := piled.head
  have admitted : (checkBreaker (System.loopConfig .default) t.world (struckAt .updateStatus .checkBreaker)
      row.endpointId).2 = false := by
    rw [checkBreaker_admission,admission_new _ (piled.breakers _)]
    rfl
  have count := piled.count
  have ends := runDispatchOnce_ends (System.loopConfig .default) supplied.world
    (struckAt_late .updateStatus rfl) head
  rw [← named] at count ⊢
  generalize (runDispatchOnce .tabletop (System.loopConfig .default) (struckAt .updateStatus) t.world).1.db = after at ends
  cases ends with
  | unread many => omega
  | refused few refused =>
    rw [admitted] at refused
    cases refused
  | unrecorded few admitted struck => exact absurd rfl struck
  | unparked few admitted live put spent struck begun => cases put
  | settled few admitted live put filed settled => cases put
  | @halfway db few admitted live struck begun =>
    have put : requeued (struckAt .updateStatus) row.id db = db.setStatus row.id .received := if_pos rfl
    obtain ⟨a,_,_,_,_,_,attempts⟩ := begun.attempt
    rw [put]
    constructor
    · apply Db.nextReceived_congr
      have undone : (t.world.db.setStatus row.id .processing).setStatus row.id .received = t.world.db :=
        Db.setStatus_undo (Db.nextReceived_waiting head) _
      rw [← congrArg Db.incomingEvents undone]
      simp only [Db.setStatus,begun.events]
    · have more : (db.attempts row.id).length = n+1 := by
        rw [attempts,List.length_append,List.length_singleton]
        exact congrArg (· + 1) count
      exact more

theorem Piled.next (piled : Piled n t) (supplied : System.Supplied .tabletop t) (few : n < 2^32) :
    ∃ u, Transition.Reaches (System.step .tabletop .default) t u ∧ Piled (n+1) u := by
  obtain ⟨u,path,running,world,_⟩ := System.pass_run .tabletop .default (struckAt .updateStatus)
    piled.running piled.idle
  obtain ⟨queue,count⟩ := piled.struck supplied few
  rw [← world] at queue count
  have first := piled.queue
  rw [← queue] at first
  obtain ⟨v,further,more⟩ := Piled.of_restart running first count
  exact ⟨v,path.trans further,more⟩

theorem attempts_pile_up (n : Nat) (few : n ≤ 2^32) :
    ∃ t, Transition.Reaches (System.step .tabletop .default) (System.boot .default) t ∧ Piled n t := by
  induction n with
  | zero =>
    have ran : (Transition.exec (System.step .tabletop .default) (System.boot .default) System.registerAndAccept).map
        (fun t => (t.running,t.world.db.nextReceived.map (·.id),t.world.db.attemptCount "11")) =
        some (true,some "11",0) := by decide +kernel
    obtain ⟨t,reached,seen⟩ := Option.map_eq_some_iff.mp ran
    simp only [Prod.mk.injEq] at seen
    obtain ⟨running,queue,count⟩ := seen
    obtain ⟨u,further,none⟩ := Piled.of_restart running queue count
    exact ⟨u,.trans ⟨_,reached⟩ further,none⟩
  | succ n ih =>
    obtain ⟨t,⟨actions,reached⟩,piled⟩ := ih (Nat.le_of_succ_le few)
    have supplied := (System.boot_booted .tabletop .default).supplied_after
      (Transition.Run.check (fun _ _ => True) reached (.all fun _ _ => trivial))
    obtain ⟨u,further,more⟩ := piled.next supplied few
    exact ⟨u,.trans ⟨actions,reached⟩ further,more⟩

-- Once the event has as many attempts as a u32 can count, the number of the next
-- one is zero.
theorem attempt_number_wraps :
    ∃ t, Transition.Reaches (System.step .tabletop .default) (System.boot .default) t ∧ Clean quiet200 ∧
      ¬PassEffect (System.loopConfig .default) quiet200 t.world
        (runDispatchOnce .tabletop (System.loopConfig .default) quiet200 t.world).1
        (runDispatchOnce .tabletop (System.loopConfig .default) quiet200 t.world).2 := by
  obtain ⟨t,⟨actions,reached⟩,piled⟩ := attempts_pile_up (2^32-1) (by omega)
  have supplied := (System.boot_booted .tabletop .default).supplied_after
    (Transition.Run.check (fun _ _ => True) reached (.all fun _ _ => trivial))
  obtain ⟨row,head,named⟩ := piled.head
  obtain ⟨parent,present⟩ := Db.endpoint_of_event (Db.nextReceived_event head)
  have count := piled.count
  rw [← named] at count
  have admitted : (checkBreaker (System.loopConfig .default) t.world (quiet200 .checkBreaker) row.endpointId).2 =
      false := by
    rw [checkBreaker_admission,admission_new _ (piled.breakers _)]
    rfl
  obtain ⟨after,recorded,passed⟩ := runDispatchOnce_attempted (x:=.tabletop) quiet200_clean head present
    (by omega) admitted supplied.world.fresh_attempt
  refine ⟨t,⟨actions,reached⟩,quiet200_clean,fun effect => ?_⟩
  rw [passed] at effect
  obtain ⟨other,first,writes⟩ := effect.delivered
  obtain rfl : row = other := by
    have same := Db.nextReceived_exact.mpr ⟨first.stored,first.waiting,first.first⟩
    rw [head] at same
    exact Option.some.inj same
  obtain ⟨a,rows,_,number,_⟩ := writes.attempts
  obtain ⟨b,rows',number'⟩ := recorded.tried
  rw [exchange_db] at rows'
  obtain rfl : b = a := by
    have both := rows'.symm.trans rows
    exact List.singleton_inj.mp (List.append_cancel_left both)
  rw [number] at number'
  simp only [Delivery.attemptNum,deliveryOf,count] at number'
  omega

end AetherRelay
