import AetherRelay.System.Ledger

namespace AetherRelay

def verdict (cfg : DispatchLoopConfig) (count : Nat) (answer : Answer) : EventStatus :=
  if answer.success then .delivered
  else if cfg.maxAttempts.toNat ≤ (count+1) % 2^32 then .failed
  else .received

theorem settledStatus_verdict (cfg : DispatchLoopConfig) (d : Delivery) (answer : Answer) :
    settledStatus cfg d answer = verdict cfg d.attemptCount answer := rfl

def SameRows (k : Uuid) (before after : Db) : Prop :=
  after.event k = before.event k ∧ after.attempts k = before.attempts k ∧ after.letters k = before.letters k

def Attempted (answer : Answer) (k : Uuid) (before after : Db) : Prop :=
  ∃ a, a ∉ before.attempts k ∧ a.eventId = k ∧ a.attemptNumber = (before.attemptCount k + 1) % 2^32 ∧
    a.responseStatus = answer.statusCode ∧ a.errorMessage = answer.errorMsg ∧
    after.attempts k = before.attempts k ++ [a]

-- The complete settlement of one delivery, said of the rows of its event: one new
-- attempt, the matching status and, when the budget is exhausted, the letter.
structure WhollySettled (cfg : DispatchLoopConfig) (answer : Answer) (row : IncomingEventRecord) (before after : Db) :
    Prop where
  attempt : Attempted answer row.id before after
  status : after.event row.id = some (row.withStatus (verdict cfg (before.attemptCount row.id) answer))
  kept : verdict cfg (before.attemptCount row.id) answer ≠ .failed → after.letters row.id = before.letters row.id
  parked : verdict cfg (before.attemptCount row.id) answer = .failed → ∃ letter, letter ∉ before.letters row.id ∧
    letter.eventId = row.id ∧ letter.endpointId = row.endpointId ∧
    letter.errorReason = answer.errorMsg.getD "Max attempts exceeded" ∧
    letter.lastAttemptStatus = answer.statusCode ∧ after.letters row.id = [letter]

structure SettlesWhole (cfg : DispatchLoopConfig) (answer : Answer) (row : IncomingEventRecord) (before after : Db) :
    Prop where
  whole : SameRows row.id before after ∨ WhollySettled cfg answer row before after
  free : after.status row.id ≠ some .processing
  filed : after.status row.id = some .failed → after.letters row.id ≠ []
  once : (∀ a ∈ before.attempts row.id, a.succeeded = false) → after.status row.id = some .received →
    ∀ a ∈ after.attempts row.id, a.succeeded = false

section
variable {x : Externals} {cfg : DispatchLoopConfig} {w : World} {row : IncomingEventRecord}

theorem verdict_not_processing (cfg : DispatchLoopConfig) (count : Nat) (answer : Answer) :
    verdict cfg count answer ≠ .processing := by
  unfold verdict
  split
  · decide
  · split <;> decide

theorem verdict_received (kept : verdict cfg count answer = .received) : answer.success = false := by
  unfold verdict at kept
  split at kept
  · cases kept
  · rename_i failed
    simpa using failed

theorem SettlesWhole.of_same (waiting : w.db.event row.id = some row) (status : row.status = .received)
    (same : SameRows row.id w.db after) : SettlesWhole cfg answer row w.db after := by
  obtain ⟨event,attempts,letters⟩ := same
  have now : after.status row.id = some .received := by
    rw [Db.status,event,waiting,Option.map_some,status]
  refine ⟨.inl ⟨event,attempts,letters⟩,?_,?_,?_⟩
  · rw [now]
    decide
  · rw [now]
    intro taken
    cases taken
  · intro failed _
    rw [attempts]
    exact failed

theorem SettlesWhole.of_settled (settled : WhollySettled cfg answer row w.db after) :
    SettlesWhole cfg answer row w.db after := by
  have now : after.status row.id = some (verdict cfg (w.db.attemptCount row.id) answer) := by
    rw [Db.status,settled.status]
    rfl
  refine ⟨.inr settled,?_,?_,?_⟩
  · rw [now]
    intro same
    exact verdict_not_processing _ _ _ (Option.some.inj same)
  · rw [now]
    intro same
    obtain ⟨letter,_,_,_,_,_,letters⟩ := settled.parked (Option.some.inj same)
    rw [letters]
    exact List.cons_ne_nil _ _
  · rw [now]
    intro failed same a present
    obtain ⟨new,_,_,_,code,_,attempts⟩ := settled.attempt
    rw [attempts] at present
    rcases List.mem_append.mp present with old | last
    · exact failed a old
    · obtain rfl := List.mem_singleton.mp last
      rw [DeliveryAttempt.succeeded,code,Answer.any_isSuccess]
      exact verdict_received (Option.some.inj same)

theorem World.Supplied.new_attempt (supplied : w.Supplied x) (fresh : a.id = x.nowV7 w.drawn) :
    a ∉ w.db.attempts k := by
  intro old
  apply supplied.fresh_attempt
  rw [← fresh]
  exact List.mem_map_of_mem (List.mem_of_mem_filter old)

theorem World.Supplied.new_letter (supplied : w.Supplied x) (fresh : letter.id = x.nowV7 (w.drawn+1)) :
    letter ∉ w.db.letters k := by
  intro old
  have known : letter.id ∈ w.db.ids := by
    simp only [Db.ids,List.mem_append]
    exact .inr (List.mem_map_of_mem (List.mem_of_mem_filter old))
  exact supplied.store letter.id known (w.drawn+1) (Nat.le_succ _) fresh.symm

theorem Recorded.settled (recorded : Recorded x cfg sent d answer after) (supplied : w.Supplied x)
    (claimed : sent.db = w.db.setStatus d.eventId .processing) (drawn : sent.drawn = w.drawn)
    (found : w.db.event row.id = some row) (event : d.eventId = row.id) (target : d.endpointId = row.endpointId)
    (count : d.attemptCount = w.db.attemptCount row.id) : WhollySettled cfg answer row w.db after.db := by
  obtain ⟨now,status,attempts,kept,parked⟩ := recorded.own claimed
  rw [event] at status attempts kept parked
  simp only [settledStatus_verdict,count,drawn] at status attempts kept parked
  refine ⟨⟨_,?_,event,?_,rfl,rfl,attempts⟩,?_,kept,fun spent => ⟨_,?_,event,target,rfl,rfl,parked spent⟩⟩
  · exact supplied.new_attempt rfl
  · rw [← count]
    rfl
  · exact status.trans (by rw [World.record,found]; rfl)
  · exact supplied.new_letter rfl

def requeued (inp : Point → Input) (id : Uuid) (db : Db) : Db :=
  if (inp .requeueErrored).fault = none then db.setStatus id .received else db

structure Begun (answer : Answer) (row : IncomingEventRecord) (before db : Db) : Prop where
  events : db.incomingEvents = (before.setStatus row.id .processing).incomingEvents
  attempt : Attempted answer row.id before db
  letters : db.letters row.id = before.letters row.id

-- Everywhere a pass that has claimed `row` can leave the store when errors hit
-- the recording block and the requeue only.
inductive PassEnd (cfg : DispatchLoopConfig) (inp : Point → Input) (w : World) (row : IncomingEventRecord) : Db → Prop where
  | unread (many : 2^32 ≤ w.db.attemptCount row.id) :
      PassEnd cfg inp w row (requeued inp row.id (w.db.setStatus row.id .processing))
  | refused (few : w.db.attemptCount row.id < 2^32)
      (refused : (checkBreaker cfg w (inp .checkBreaker) row.endpointId).2 = true) : PassEnd cfg inp w row w.db
  | unrecorded (few : w.db.attemptCount row.id < 2^32)
      (admitted : (checkBreaker cfg w (inp .checkBreaker) row.endpointId).2 = false)
      (struck : (inp .insertAttempt).fault ≠ none) :
      PassEnd cfg inp w row (requeued inp row.id (w.db.setStatus row.id .processing))
  | halfway (few : w.db.attemptCount row.id < 2^32)
      (admitted : (checkBreaker cfg w (inp .checkBreaker) row.endpointId).2 = false)
      (live : (inp .insertAttempt).fault = none) (struck : (inp .updateStatus).fault ≠ none)
      (begun : Begun (inp .await).answer row w.db db) : PassEnd cfg inp w row (requeued inp row.id db)
  | unparked (few : w.db.attemptCount row.id < 2^32)
      (admitted : (checkBreaker cfg w (inp .checkBreaker) row.endpointId).2 = false)
      (live : (inp .insertAttempt).fault = none) (put : (inp .updateStatus).fault = none)
      (spent : verdict cfg (w.db.attemptCount row.id) (inp .await).answer = .failed)
      (struck : (inp .insertDeadLetter).fault ≠ none)
      (begun : Begun (inp .await).answer row w.db db) :
      PassEnd cfg inp w row (requeued inp row.id (db.setStatus row.id .failed))
  | settled (few : w.db.attemptCount row.id < 2^32)
      (admitted : (checkBreaker cfg w (inp .checkBreaker) row.endpointId).2 = false)
      (live : (inp .insertAttempt).fault = none) (put : (inp .updateStatus).fault = none)
      (filed : verdict cfg (w.db.attemptCount row.id) (inp .await).answer = .failed →
        (inp .insertDeadLetter).fault = none)
      (settled : WhollySettled cfg (inp .await).answer row w.db db) : PassEnd cfg inp w row db

theorem fetchDelivery_many {inp : Point → Input} (late : FailsLate inp) (found : w.db.event eventId = some row)
    (many : 2^32 ≤ w.db.attemptCount eventId) : ∃ e, fetchDelivery inp w eventId = .error e := by
  obtain ⟨parent,present⟩ := Db.endpoint_of_event found
  have event : selectEvent w (inp .selectEvent) eventId = .ok (row.endpointId,row.rawBody) :=
    statement_live (late _ rfl) (by rw [found])
  have target : selectTarget w (inp .selectEndpoint) row.endpointId = .ok parent.targetUrl :=
    statement_live (late _ rfl) (by rw [present])
  simp only [fetchDelivery,event,target,countAttempts,statement,late .countAttempts rfl,if_neg (Nat.not_lt.mpr many)]
  exact ⟨_,rfl⟩

theorem runDispatchOnce_errored {inp : Point → Input} (late : FailsLate inp) (head : w.db.nextReceived = some row)
    (failed : dispatchSingleEvent x cfg inp {w with db:=w.db.setStatus row.id .processing} row.id = (after,.error e)) :
    (runDispatchOnce x cfg inp w).1.db = requeued inp row.id after.db := by
  have claim : claimNextEvent w (inp .claim) =
      .ok ({w with db:=w.db.setStatus row.id .processing},some (row.id,row.endpointId)) :=
    statement_live (late _ rfl) (by rw [head])
  simp only [runDispatchOnce,claim,failed,requeued]
  cases fault : (inp .requeueErrored).fault with
  | some cause => simp [requeueEvent,statement,fault]
  | none => simp [requeueEvent,statement,fault]

theorem runDispatchOnce_returned {inp : Point → Input} (late : FailsLate inp) (head : w.db.nextReceived = some row)
    (done : dispatchSingleEvent x cfg inp {w with db:=w.db.setStatus row.id .processing} row.id = (after,.ok result)) :
    (runDispatchOnce x cfg inp w).1.db = after.db := by
  have claim : claimNextEvent w (inp .claim) =
      .ok ({w with db:=w.db.setStatus row.id .processing},some (row.id,row.endpointId)) :=
    statement_live (late _ rfl) (by rw [head])
  simp only [runDispatchOnce,claim,done]
  rfl

theorem Begun.of_stored {d : Delivery} (supplied : w.Supplied x)
    (stored : (w.db.setStatus row.id .processing).insertAttempt (d.attempt answer (x.nowV7 w.drawn) now) = .ok db)
    (event : d.eventId = row.id) (count : d.attemptCount = w.db.attemptCount row.id) : Begun answer row w.db db := by
  obtain ⟨_,_,_,events,letters⟩ := Db.insertAttempt_parts stored
  refine ⟨events,⟨d.attempt answer (x.nowV7 w.drawn) now,supplied.new_attempt rfl,event,?_,rfl,rfl,?_⟩,
    Db.letters_congr letters⟩
  · rw [← count]
    rfl
  · exact (Db.attempts_insertAttempt stored).trans (if_pos event)

theorem runDispatchOnce_ends (cfg : DispatchLoopConfig) {inp : Point → Input} (supplied : w.Supplied x) (late : FailsLate inp)
    (head : w.db.nextReceived = some row) : PassEnd cfg inp w row (runDispatchOnce x cfg inp w).1.db := by
  have found := Db.event_claimed head
  by_cases few : w.db.attemptCount row.id < 2^32
  · obtain ⟨d,fetched,event,target,count⟩ :=
      fetchDelivery_clean (w:={w with db:=w.db.setStatus row.id .processing}) late found few
    have target : d.endpointId = row.endpointId := target
    by_cases refused : (checkBreaker cfg w (inp .checkBreaker) row.endpointId).2 = true
    · rw [runDispatchOnce_refused late head few refused]
      exact .refused few refused
    · have admitted : (checkBreaker cfg w (inp .checkBreaker) row.endpointId).2 = false := by simpa using refused
      obtain ⟨after,result,ends,dispatched⟩ := dispatchSingleEvent_ends fetched found
        (by rw [target]; exact admitted) supplied.fresh_attempt
      have verdict_of := settledStatus_verdict cfg d (inp .await).answer
      rw [count] at verdict_of
      cases ends with
      | unrecorded struck e =>
        rw [runDispatchOnce_errored late head dispatched]
        exact .unrecorded few admitted struck
      | halfway live struck stored e =>
        rw [runDispatchOnce_errored late head dispatched]
        exact .halfway few admitted live struck (.of_stored supplied stored event count)
      | unparked live put spent struck stored e =>
        rw [runDispatchOnce_errored late head dispatched,event]
        exact .unparked few admitted live put (verdict_of.symm.trans spent) struck
          (.of_stored supplied stored event count)
      | whole live put filed recorded =>
        rw [runDispatchOnce_returned late head dispatched]
        refine .settled few admitted live put (fun spent => filed (verdict_of.trans spent)) ?_
        exact recorded.settled supplied (by rw [event]; rfl) rfl (Db.nextReceived_event head) event target count
  · have many := Nat.le_of_not_lt few
    obtain ⟨e,failed⟩ := fetchDelivery_many (w:={w with db:=w.db.setStatus row.id .processing}) late found many
    have dispatched : dispatchSingleEvent x cfg inp {w with db:=w.db.setStatus row.id .processing} row.id =
        ({w with db:=w.db.setStatus row.id .processing},.error e) := by
      simp only [dispatchSingleEvent,failed]
    rw [runDispatchOnce_errored late head dispatched]
    exact .unread many

-- The errors that leave nothing half done. A struck requeue strands the row, and
-- once the attempt is written a requeue is right only for an event that was to
-- be tried again anyway.
def RecordsWhole (cfg : DispatchLoopConfig) (inp : Point → Input) (w : World) (row : IncomingEventRecord) : Prop :=
  if 2^32 ≤ w.db.attemptCount row.id then (inp .requeueErrored).fault = none
  else if (checkBreaker cfg w (inp .checkBreaker) row.endpointId).2 = true then True
  else if (inp .insertAttempt).fault ≠ none then (inp .requeueErrored).fault = none
  else if (inp .updateStatus).fault ≠ none then
    verdict cfg (w.db.attemptCount row.id) (inp .await).answer = .received ∧ (inp .requeueErrored).fault = none
  else verdict cfg (w.db.attemptCount row.id) (inp .await).answer = .failed → (inp .insertDeadLetter).fault = none

theorem Attempted.not_same (attempted : Attempted answer k before after) : ¬SameRows k before after := by
  intro same
  obtain ⟨a,new,_,_,_,_,attempts⟩ := attempted
  apply new
  rw [← same.2.1,attempts]
  exact List.mem_append_right _ (List.mem_singleton_self a)

theorem status_claimed {db : Db} (found : w.db.event row.id = some row)
    (events : db.incomingEvents = (w.db.setStatus row.id .processing).incomingEvents) :
    db.status row.id = some .processing := by
  rw [Db.status_congr events,Db.status_setStatus,if_pos rfl,Db.status,found]
  rfl

theorem event_written {db : Db} (found : w.db.event row.id = some row)
    (events : db.incomingEvents = (w.db.setStatus row.id .processing).incomingEvents) (st : EventStatus) :
    (db.setStatus row.id st).event row.id = some (row.withStatus st) := by
  rw [Db.event_setStatus,if_pos rfl,Db.event_congr events,Db.event_setStatus,if_pos rfl,found]
  rfl

section
variable {inp : Point → Input} {answer : Answer} {db : Db}

theorem settles_unwritten (found : w.db.event row.id = some row) (waiting : row.status = .received) :
    SettlesWhole cfg answer row w.db (requeued inp row.id (w.db.setStatus row.id .processing)) ↔
      (inp .requeueErrored).fault = none := by
  have status : w.db.status row.id = some .received := by rw [Db.status,found,Option.map_some,waiting]
  constructor
  · intro settles
    by_contra struck
    rw [requeued,if_neg struck] at settles
    exact settles.free (status_claimed found rfl)
  · intro put
    rw [requeued,if_pos put,Db.setStatus_undo status]
    exact .of_same found waiting ⟨rfl,rfl,rfl⟩

theorem settles_halfway (found : w.db.event row.id = some row) (begun : Begun answer row w.db db) :
    SettlesWhole cfg answer row w.db (requeued inp row.id db) ↔
      verdict cfg (w.db.attemptCount row.id) answer = .received ∧ (inp .requeueErrored).fault = none := by
  constructor
  · intro settles
    have put : (inp .requeueErrored).fault = none := by
      by_contra struck
      rw [requeued,if_neg struck] at settles
      exact settles.free (status_claimed found begun.events)
    rw [requeued,if_pos put] at settles
    refine ⟨?_,put⟩
    rcases settles.whole with same | settled
    · exact absurd same (Attempted.not_same begun.attempt)
    · have written := (event_written found begun.events .received).symm.trans settled.status
      exact (congrArg IncomingEventRecord.status (Option.some.inj written)).symm
  · intro ⟨again,put⟩
    rw [requeued,if_pos put]
    apply SettlesWhole.of_settled
    refine ⟨begun.attempt,?_,fun _ => begun.letters,fun spent => ?_⟩
    · rw [again]
      exact event_written found begun.events .received
    · rw [again] at spent
      cases spent

theorem settles_unparked (begun : Begun answer row w.db db)
    (spent : verdict cfg (w.db.attemptCount row.id) answer = .failed) :
    ¬SettlesWhole cfg answer row w.db (requeued inp row.id (db.setStatus row.id .failed)) := by
  intro settles
  have letters : (requeued inp row.id (db.setStatus row.id .failed)).letters row.id = w.db.letters row.id := by
    unfold requeued
    split <;> exact begun.letters
  have attempted : Attempted answer row.id w.db (requeued inp row.id (db.setStatus row.id .failed)) := by
    unfold requeued
    split <;> exact begun.attempt
  rcases settles.whole with same | settled
  · exact attempted.not_same same
  · obtain ⟨letter,new,_,_,_,_,filed⟩ := settled.parked spent
    rw [letters] at filed
    exact new (by rw [filed]; exact List.mem_singleton_self letter)

theorem PassEnd.exact (ends : PassEnd cfg inp w row db) (found : w.db.event row.id = some row)
    (waiting : row.status = .received) :
    SettlesWhole cfg (inp .await).answer row w.db db ↔ RecordsWhole cfg inp w row := by
  unfold RecordsWhole
  cases ends with
  | unread many =>
    rw [if_pos many]
    exact settles_unwritten found waiting
  | refused few refused =>
    rw [if_neg (Nat.not_le.mpr few),if_pos refused]
    exact ⟨fun _ => trivial,fun _ => .of_same found waiting ⟨rfl,rfl,rfl⟩⟩
  | unrecorded few admitted struck =>
    rw [if_neg (Nat.not_le.mpr few),if_neg (by simp [admitted]),if_pos struck]
    exact settles_unwritten found waiting
  | halfway few admitted live struck begun =>
    rw [if_neg (Nat.not_le.mpr few),if_neg (by simp [admitted]),if_neg (by simp [live]),if_pos struck]
    exact settles_halfway found begun
  | unparked few admitted live put spent struck begun =>
    rw [if_neg (Nat.not_le.mpr few),if_neg (by simp [admitted]),if_neg (by simp [live]),if_neg (by simp [put])]
    exact ⟨fun settles => absurd settles (settles_unparked begun spent),fun files => absurd (files spent) struck⟩
  | settled few admitted live put filed settled =>
    rw [if_neg (Nat.not_le.mpr few),if_neg (by simp [admitted]),if_neg (by simp [live]),if_neg (by simp [put])]
    exact ⟨fun _ => filed,fun _ => .of_settled settled⟩

end

theorem settlement_atomic_exact {cfg : AppConfig} {s t : System.State} {actions : List System.Action}
    (start : System.Booted x cfg s) (path : Transition.Run (System.step x cfg) (fun _ _ => True) s actions t)
    (inp : Point → Input) (late : FailsLate inp) (head : t.world.db.nextReceived = some row) :
    SettlesWhole (System.loopConfig cfg) (inp .await).answer row t.world.db
        (runDispatchOnce x (System.loopConfig cfg) inp t.world).1.db ↔
      RecordsWhole (System.loopConfig cfg) inp t.world row := by
  have supplied := start.supplied_after path
  exact (runDispatchOnce_ends _ supplied.world late head).exact (Db.nextReceived_event head)
    (Db.nextReceived_status head).2

def struckAt (point : Point) (p : Point) : Input :=
  ⟨if p = point then some (.failure "disk I/O error") else none,0,0,.response .ok,0⟩

theorem struckAt_late (point : Point) (records : point.records = true) : FailsLate (struckAt point) := by
  intro p before
  apply if_neg
  intro same
  rw [same,records] at before
  cases before

theorem settlement_atomic_exact_unrecorded :
    ∃ t row, Transition.exec (System.step .tabletop .default) (System.boot .default) System.registerAndAccept = some t ∧
      t.world.db.nextReceived = some row ∧ SettlesWhole (System.loopConfig .default) (.response .ok) row t.world.db
        (runDispatchOnce .tabletop (System.loopConfig .default) (struckAt .insertAttempt) t.world).1.db := by
  have ran : (Transition.exec (System.step .tabletop .default) (System.boot .default) System.registerAndAccept).map
      (fun t => t.world.db.nextReceived.isSome) = some true := by decide +kernel
  obtain ⟨t,reached,seen⟩ := Option.map_eq_some_iff.mp ran
  obtain ⟨row,head⟩ := Option.isSome_iff_exists.mp seen
  have path := Transition.Run.check (fun _ _ => True) reached (.all fun _ _ => trivial)
  refine ⟨t,row,reached,head,(settlement_atomic_exact (System.boot_booted _ _) path (struckAt .insertAttempt)
    (struckAt_late _ rfl) head).mpr ?_⟩
  have struck : (struckAt .insertAttempt .insertAttempt).fault ≠ none := by decide
  have put : (struckAt .insertAttempt .requeueErrored).fault = none := rfl
  rw [RecordsWhole,if_pos struck]
  split
  · exact put
  · split
    · trivial
    · exact put

-- The status cannot be written after a 200: the event waits for its next
-- delivery with the success already among its attempts.
theorem recorded_success_sent_again :
    ∃ t row, Transition.exec (System.step .tabletop .default) (System.boot .default) System.registerAndAccept = some t ∧
      t.world.db.nextReceived = some row ∧ ¬SettlesWhole (System.loopConfig .default) (.response .ok) row t.world.db
        (runDispatchOnce .tabletop (System.loopConfig .default) (struckAt .updateStatus) t.world).1.db := by
  have ran : (Transition.exec (System.step .tabletop .default) (System.boot .default) System.registerAndAccept).map
      (fun t => (t.world.db.nextReceived.map (·.id),t.world.db.attempts "11",
        (runDispatchOnce .tabletop (System.loopConfig .default) (struckAt .updateStatus) t.world).1.db.status "11",
        ((runDispatchOnce .tabletop (System.loopConfig .default) (struckAt .updateStatus) t.world).1.db.attempts
          "11").map (·.succeeded))) = some (some "11",[],some .received,[true]) := by decide +kernel
  obtain ⟨t,reached,seen⟩ := Option.map_eq_some_iff.mp ran
  simp only [Prod.mk.injEq] at seen
  obtain ⟨first,none,waiting,good⟩ := seen
  obtain ⟨row,head,named⟩ := Option.map_eq_some_iff.mp first
  refine ⟨t,row,reached,head,fun settles => ?_⟩
  have failed := settles.once
  rw [named,none,waiting] at failed
  obtain ⟨a,present,success⟩ := List.mem_map.mp (good ▸ List.mem_singleton_self true)
  have wrong := failed (fun _ old => by cases old) rfl a present
  rw [success] at wrong
  cases wrong

end
end AetherRelay
