import AetherRelay.Worker.Alone

namespace AetherRelay
variable {x : Externals} {cfg : DispatchLoopConfig} {w : World}

def Clean (inp : Point → Input) : Prop := ∀ p, (inp p).fault = none

def Point.records : Point → Bool
  | .insertAttempt | .updateStatus | .insertDeadLetter | .requeueErrored => true
  | _ => false

def FailsLate (inp : Point → Input) : Prop := ∀ p, p.records = false → (inp p).fault = none

theorem Clean.failsLate {inp : Point → Input} (clean : Clean inp) : FailsLate inp := fun p _ => clean p

theorem statement_live {inp : Input} {result : Except SqlError α} (live : inp.fault = none) (done : result = .ok value) :
    statement inp result = .ok value := statement_ok.mpr ⟨live,done⟩

def deliveryOf (w : World) (row : IncomingEventRecord) (parent : EndpointRecord) : Delivery :=
  ⟨row.id,row.endpointId,parent.targetUrl,row.rawBody,w.db.attemptCount row.id⟩

theorem fetchDelivery_read {inp : Point → Input} (row : IncomingEventRecord) (late : FailsLate inp) (found : w.db.event row.id = some row)
    (present : w.db.endpoint row.endpointId = some parent) (fits : w.db.attemptCount row.id < 2^32) :
    fetchDelivery inp w row.id = .ok (deliveryOf w row parent) := by
  have event : selectEvent w (inp .selectEvent) row.id = .ok (row.endpointId,row.rawBody) :=
    statement_live (late _ rfl) (by rw [found])
  have target : selectTarget w (inp .selectEndpoint) row.endpointId = .ok parent.targetUrl :=
    statement_live (late _ rfl) (by rw [present])
  have count : countAttempts w (inp .countAttempts) row.id = .ok (w.db.attemptCount row.id) :=
    statement_live (late _ rfl) (if_pos fits)
  simp only [fetchDelivery,event,target,count,deliveryOf]

theorem fetchDelivery_clean {inp : Point → Input} (late : FailsLate inp) (found : w.db.event eventId = some row)
    (fits : w.db.attemptCount eventId < 2^32) :
    ∃ d, fetchDelivery inp w eventId = .ok d ∧ d.eventId = eventId ∧ d.endpointId = row.endpointId ∧
      d.attemptCount = w.db.attemptCount eventId := by
  obtain ⟨parent,present⟩ := Db.endpoint_of_event found
  obtain rfl : row.id = eventId := (Db.event_mem found).2
  exact ⟨_,fetchDelivery_read _ late found present fits,rfl,rfl,rfl⟩

inductive Recorded (x : Externals) (cfg : DispatchLoopConfig) (w : World) (d : Delivery) (answer : Answer) :
    World → Prop where
  | kept (now : Nat) (stored : w.db.insertAttempt (d.attempt answer (x.nowV7 w.drawn) now) = .ok db)
      (other : settledStatus cfg d answer ≠ .failed) :
      Recorded x cfg w d answer
        {w with db:=db.setStatus d.eventId (settledStatus cfg d answer),drawn:=w.drawn+1}
  | parked (now : Nat) (stored : w.db.insertAttempt (d.attempt answer (x.nowV7 w.drawn) now) = .ok db)
      (spent : settledStatus cfg d answer = .failed)
      (filed : (db.setStatus d.eventId .failed).replaceLetter (d.letter answer (x.nowV7 (w.drawn+1)) now) = .ok last) :
      Recorded x cfg w d answer {w with db:=last,drawn:=w.drawn+2}

theorem insertAttempt_live {db : Db} {row : DeliveryAttempt} (fresh : row.id ∉ db.deliveryAttempts.rows.map (·.id))
    (present : db.event row.eventId = some e) : ∃ next, db.insertAttempt row = .ok next := by
  cases done : db.insertAttempt row with
  | ok next => exact ⟨next,rfl⟩
  | error cause =>
    rcases Db.insertAttempt_error done with taken | gone
    · exact absurd taken fresh
    · rw [present] at gone
      cases gone

theorem replaceLetter_live {db : Db} {row : DeadLetter} (present : db.event row.eventId = some e) :
    ∃ next, db.replaceLetter row = .ok next := by
  cases done : db.replaceLetter row with
  | ok next => exact ⟨next,rfl⟩
  | error cause =>
    rw [Db.replaceLetter_error done] at present
    cases present

inductive RecordEnd (x : Externals) (cfg : DispatchLoopConfig) (inp : Point → Input) (w : World) (d : Delivery)
    (answer : Answer) : World → Except AppError Unit → Prop where
  | unrecorded (struck : (inp .insertAttempt).fault ≠ none) (e : AppError) :
      RecordEnd x cfg inp w d answer w (.error e)
  | halfway (live : (inp .insertAttempt).fault = none) (struck : (inp .updateStatus).fault ≠ none)
      (stored : w.db.insertAttempt (d.attempt answer (x.nowV7 w.drawn) (inp .insertAttempt).now) = .ok db)
      (e : AppError) : RecordEnd x cfg inp w d answer {w with db:=db,drawn:=w.drawn+1} (.error e)
  | unparked (live : (inp .insertAttempt).fault = none) (put : (inp .updateStatus).fault = none)
      (spent : settledStatus cfg d answer = .failed) (struck : (inp .insertDeadLetter).fault ≠ none)
      (stored : w.db.insertAttempt (d.attempt answer (x.nowV7 w.drawn) (inp .insertAttempt).now) = .ok db)
      (e : AppError) :
      RecordEnd x cfg inp w d answer {w with db:=db.setStatus d.eventId .failed,drawn:=w.drawn+1} (.error e)
  | whole (live : (inp .insertAttempt).fault = none) (put : (inp .updateStatus).fault = none)
      (filed : settledStatus cfg d answer = .failed → (inp .insertDeadLetter).fault = none)
      (recorded : Recorded x cfg w d answer after) : RecordEnd x cfg inp w d answer after (.ok ())

theorem recordDelivery_ends (inp : Point → Input) (d : Delivery) (answer : Answer)
    (fresh : x.nowV7 w.drawn ∉ w.db.deliveryAttempts.rows.map (·.id)) (present : w.db.event d.eventId = some e) :
    RecordEnd x cfg inp w d answer (recordDelivery x cfg inp w d answer).1 (recordDelivery x cfg inp w d answer).2 := by
  obtain ⟨db,stored⟩ : ∃ db, w.db.insertAttempt (d.attempt answer (x.nowV7 w.drawn) (inp .insertAttempt).now) = .ok db :=
    insertAttempt_live fresh present
  cases first : (inp .insertAttempt).fault with
  | some cause =>
    simp only [recordDelivery,insertAttempt,statement,first]
    exact .unrecorded (by simp [first]) _
  | none =>
    have inserted : insertAttempt x w (inp .insertAttempt) d answer = .ok {w with db:=db,drawn:=w.drawn+1} :=
      statement_live first (by rw [stored]; rfl)
    cases second : (inp .updateStatus).fault with
    | some cause =>
      simp only [recordDelivery,inserted,updateStatus,statement,second]
      exact .halfway first (by simp [second]) stored _
    | none =>
      have updated : ∀ w : World, updateStatus cfg w (inp .updateStatus) d answer =
          .ok {w with db:=w.db.setStatus d.eventId (settledStatus cfg d answer)} := fun w => statement_live second rfl
      by_cases spent : settledStatus cfg d answer = .failed
      · cases third : (inp .insertDeadLetter).fault with
        | some cause =>
          simp only [recordDelivery,inserted,updated,spent,if_true,insertDeadLetter,statement,third]
          exact .unparked first second spent (by simp [third]) stored _
        | none =>
          obtain ⟨_,_,_,events,_⟩ := Db.insertAttempt_parts stored
          have parent : (db.setStatus d.eventId .failed).event d.eventId = some (e.withStatus .failed) := by
            rw [Db.event_setStatus,if_pos rfl,Db.event_congr events,present]
            rfl
          obtain ⟨last,filed⟩ : ∃ last, (db.setStatus d.eventId .failed).replaceLetter
              (d.letter answer (x.nowV7 (w.drawn+1)) (inp .insertAttempt).now) = .ok last := replaceLetter_live parent
          have letter : insertDeadLetter x {w with db:=db.setStatus d.eventId .failed,drawn:=w.drawn+1}
              (inp .insertDeadLetter) d answer (inp .insertAttempt).now = .ok {w with db:=last,drawn:=w.drawn+2} :=
            statement_live third (by simp only [filed]; rfl)
          simp only [recordDelivery,inserted,updated,spent,letter,if_true]
          exact .whole first second (fun _ => third) (.parked _ stored spent filed)
      · simp only [recordDelivery,inserted,updated,if_neg spent]
        exact .whole first second (fun failed => absurd failed spent) (.kept _ stored spent)

theorem RecordEnd.clean {inp : Point → Input} (ends : RecordEnd x cfg inp w d answer next result) (clean : Clean inp) :
    result = .ok () ∧ Recorded x cfg w d answer next := by
  cases ends with
  | unrecorded struck e => exact absurd (clean _) struck
  | halfway live struck stored e => exact absurd (clean _) struck
  | unparked live put spent struck stored e => exact absurd (clean _) struck
  | whole live put filed recorded => exact ⟨rfl,recorded⟩

theorem dispatchSingleEvent_refused {inp : Point → Input} (late : FailsLate inp)
    (fetched : fetchDelivery inp w eventId = .ok d)
    (refused : (checkBreaker cfg w (inp .checkBreaker) d.endpointId).2 = true) :
    dispatchSingleEvent x cfg inp w eventId =
      ({(checkBreaker cfg w (inp .checkBreaker) d.endpointId).1 with db:=w.db.setStatus eventId .received},
        .ok .withheld) := by
  have put : ∀ w : World, requeueEvent w (inp .requeueDeferred) eventId =
      .ok {w with db:=w.db.setStatus eventId .received} := fun w => statement_live (late _ rfl) rfl
  simp only [dispatchSingleEvent,fetched,refused,if_true,put]
  rfl

def exchange (cfg : DispatchLoopConfig) (inp : Point → Input) (w : World) (d : Delivery) : World :=
  updateBreaker (((checkBreaker cfg w (inp .checkBreaker) d.endpointId).1.log
    (.posted d.eventId d.endpointId d.targetUrl d.rawBody)).log (.answered d.eventId (inp .await).answer))
    (inp .updateBreaker) d.endpointId (inp .await).answer

@[simp] theorem exchange_db (inp : Point → Input) (w : World) (d : Delivery) : (exchange cfg inp w d).db = w.db := rfl
@[simp] theorem exchange_drawn (inp : Point → Input) (w : World) (d : Delivery) :
    (exchange cfg inp w d).drawn = w.drawn := rfl

theorem dispatchSingleEvent_ends {inp : Point → Input}
    (fetched : fetchDelivery inp w eventId = .ok d) (found : w.db.event eventId = some row)
    (admitted : (checkBreaker cfg w (inp .checkBreaker) d.endpointId).2 = false)
    (fresh : x.nowV7 w.drawn ∉ w.db.deliveryAttempts.rows.map (·.id)) :
    ∃ after result, RecordEnd x cfg inp (exchange cfg inp w d) d (inp .await).answer after result ∧
      dispatchSingleEvent x cfg inp w eventId = (after,result.map fun _ => .of (inp .await).answer) := by
  have same := fetchDelivery_eventId fetched
  subst same
  refine ⟨_,_,recordDelivery_ends inp d (inp .await).answer fresh found,?_⟩
  unfold exchange
  simp only [dispatchSingleEvent,fetched,admitted,Bool.false_eq_true,if_false]
  split <;> rename_i done <;> rw [done] <;> rfl

inductive PassStep (x : Externals) (cfg : DispatchLoopConfig) (inp : Point → Input) (w : World) :
    World → Except AppError DispatchOutcome → Prop where
  | idle (empty : w.db.nextReceived = none) : PassStep x cfg inp w w (.ok .idle)
  | deferred (head : w.db.nextReceived = some row)
      (refused : (checkBreaker cfg w (inp .checkBreaker) row.endpointId).2 = true) :
      PassStep x cfg inp w
        ((checkBreaker cfg w (inp .checkBreaker) row.endpointId).1.log (.dispatchMetric row.endpointId "success"))
        (.ok .deferred)
  | attempted (head : w.db.nextReceived = some row)
      (admitted : (checkBreaker cfg w (inp .checkBreaker) row.endpointId).2 = false)
      (event : d.eventId = row.id) (target : d.endpointId = row.endpointId) (count : d.attemptCount = w.db.attemptCount row.id)
      (claimed : sent.db = w.db.setStatus row.id .processing) (drawn : sent.drawn = w.drawn)
      (recorded : Recorded x cfg sent d (inp .await).answer after) :
      PassStep x cfg inp w (after.log (.dispatchMetric row.endpointId "success")) (.ok .settled)

theorem runDispatchOnce_refused {inp : Point → Input} (late : FailsLate inp) (head : w.db.nextReceived = some row)
    (fits : w.db.attemptCount row.id < 2^32)
    (refused : (checkBreaker cfg w (inp .checkBreaker) row.endpointId).2 = true) :
    runDispatchOnce x cfg inp w =
      ((checkBreaker cfg w (inp .checkBreaker) row.endpointId).1.log (.dispatchMetric row.endpointId "success"),
        .ok .deferred) := by
  have claim : claimNextEvent w (inp .claim) =
      .ok ({w with db:=w.db.setStatus row.id .processing},some (row.id,row.endpointId)) :=
    statement_live (late _ rfl) (by rw [head])
  obtain ⟨d,fetched,event,target,count⟩ :=
    fetchDelivery_clean (w:={w with db:=w.db.setStatus row.id .processing}) late (Db.event_claimed head) fits
  have target : d.endpointId = row.endpointId := target
  have undone : (w.db.setStatus row.id .processing).setStatus row.id .received = w.db :=
    Db.setStatus_undo (Db.nextReceived_waiting head) _
  rw [← target] at refused
  simp only [runDispatchOnce,claim,dispatchSingleEvent_refused late fetched refused,undone]
  rw [target]
  rfl

theorem runDispatchOnce_attempted {inp : Point → Input} (clean : Clean inp) (head : w.db.nextReceived = some row)
    (present : w.db.endpoint row.endpointId = some parent) (fits : w.db.attemptCount row.id < 2^32)
    (admitted : (checkBreaker cfg w (inp .checkBreaker) row.endpointId).2 = false)
    (fresh : x.nowV7 w.drawn ∉ w.db.deliveryAttempts.rows.map (·.id)) :
    ∃ after, Recorded x cfg
        (exchange cfg inp {w with db:=w.db.setStatus row.id .processing} (deliveryOf w row parent))
        (deliveryOf w row parent) (inp .await).answer after ∧
      runDispatchOnce x cfg inp w = (after.log (.dispatchMetric row.endpointId "success"),.ok .settled) := by
  have claim : claimNextEvent w (inp .claim) =
      .ok ({w with db:=w.db.setStatus row.id .processing},some (row.id,row.endpointId)) :=
    statement_live (clean _) (by rw [head])
  have found := Db.event_claimed head
  have fetched : fetchDelivery inp {w with db:=w.db.setStatus row.id .processing} row.id =
      .ok (deliveryOf w row parent) :=
    fetchDelivery_read (row.withStatus .processing) clean.failsLate found present fits
  obtain ⟨after,result,ends,dispatched⟩ := dispatchSingleEvent_ends fetched found admitted fresh
  obtain ⟨rfl,recorded⟩ := ends.clean clean
  refine ⟨after,recorded,?_⟩
  simp only [runDispatchOnce,claim,dispatched]
  rfl

theorem runDispatchOnce_clean {inp : Point → Input} (clean : Clean inp)
    (fits : ∀ row, w.db.nextReceived = some row → w.db.attemptCount row.id < 2^32)
    (fresh : x.nowV7 w.drawn ∉ w.db.deliveryAttempts.rows.map (·.id)) :
    PassStep x cfg inp w (runDispatchOnce x cfg inp w).1 (runDispatchOnce x cfg inp w).2 := by
  cases head : w.db.nextReceived with
  | none =>
    have claim : claimNextEvent w (inp .claim) = .ok (w,none) := statement_live (clean _) (by rw [head])
    simp only [runDispatchOnce,claim]
    exact .idle head
  | some row =>
    by_cases refused : (checkBreaker cfg w (inp .checkBreaker) row.endpointId).2 = true
    · rw [runDispatchOnce_refused clean.failsLate head (fits row head) refused]
      exact .deferred head refused
    · have admitted : (checkBreaker cfg w (inp .checkBreaker) row.endpointId).2 = false := by simpa using refused
      obtain ⟨parent,present⟩ := Db.endpoint_of_event (Db.nextReceived_event head)
      obtain ⟨after,recorded,passed⟩ := runDispatchOnce_attempted clean head present (fits row head) admitted fresh
      rw [passed]
      refine .attempted head admitted rfl rfl rfl ?_ ?_ recorded
      · exact exchange_db ..
      · exact exchange_drawn ..

section deferral

theorem fetchDelivery_ok {inp : Point → Input} (fetched : fetchDelivery inp w eventId = .ok d) :
    ∃ row, w.db.event eventId = some row ∧ d.endpointId = row.endpointId ∧ w.db.attemptCount eventId < 2^32 := by
  unfold fetchDelivery at fetched
  split at fetched
  · cases fetched
  · rename_i endpointId rawBody read
    split at fetched
    · cases fetched
    · split at fetched
      · cases fetched
      · rename_i count counted
        cases fetched
        have event := (statement_ok.mp read).2
        have number := (statement_ok.mp counted).2
        cases found : w.db.event eventId with
        | none => simp [found] at event
        | some row =>
          rw [found] at event
          cases event
          refine ⟨row,rfl,rfl,?_⟩
          split at number
          · rename_i fits; exact fits
          · cases number

theorem dispatchSingleEvent_deferred {inp : Point → Input}
    (dispatched : dispatchSingleEvent x cfg inp w eventId = (next,.ok result)) (deferred : result.deferred = true) :
    ∃ d, fetchDelivery inp w eventId = .ok d ∧
      (checkBreaker cfg w (inp .checkBreaker) d.endpointId).2 = true ∧
      next = {(checkBreaker cfg w (inp .checkBreaker) d.endpointId).1 with db:=w.db.setStatus eventId .received} := by
  unfold dispatchSingleEvent at dispatched
  split at dispatched
  · cases dispatched
  · rename_i d fetched
    dsimp only at dispatched
    split at dispatched
    · rename_i refused
      split at dispatched
      · cases dispatched
      · rename_i requeued put
        cases dispatched
        cases (statement_ok.mp put).2
        exact ⟨d,fetched,refused,rfl⟩
    · split at dispatched
      · cases dispatched
      · cases dispatched
        cases deferred

-- A pass that reports a deferral, whatever its inputs were, has changed nothing
-- but the breaker it asked.
theorem runDispatchOnce_deferred {inp : Point → Input} (passed : runDispatchOnce x cfg inp w = (next,.ok .deferred)) :
    ∃ row, w.db.nextReceived = some row ∧ w.db.attemptCount row.id < 2^32 ∧
      (checkBreaker cfg w (inp .checkBreaker) row.endpointId).2 = true ∧
      next = (checkBreaker cfg w (inp .checkBreaker) row.endpointId).1.log (.dispatchMetric row.endpointId "success") := by
  unfold runDispatchOnce at passed
  split at passed
  · cases passed
  · cases passed
  · rename_i claimed eventId endpointId taken
    have taken := (statement_ok.mp taken).2
    cases head : w.db.nextReceived with
    | none => simp [head] at taken
    | some row =>
      rw [head] at taken
      cases taken
      generalize dispatched : dispatchSingleEvent x cfg inp {w with db:=w.db.setStatus row.id .processing} row.id = outcome
        at passed
      obtain ⟨after,outcome⟩ := outcome
      cases outcome with
      | error e =>
        dsimp only at passed
        split at passed <;> cases passed
      | ok result =>
        simp only [Prod.mk.injEq,Except.ok.injEq] at passed
        obtain ⟨rfl,label⟩ := passed
        have deferred : result.deferred = true := by
          by_contra other
          rw [if_neg other] at label
          cases label
        obtain ⟨d,fetched,refused,rfl⟩ := dispatchSingleEvent_deferred dispatched deferred
        obtain ⟨other,found,target,fits⟩ := fetchDelivery_ok fetched
        obtain rfl : row.withStatus .processing = other := Option.some.inj ((Db.event_claimed head).symm.trans found)
        have target : d.endpointId = row.endpointId := target
        have undone : (w.db.setStatus row.id .processing).setStatus row.id .received = w.db :=
          Db.setStatus_undo (Db.nextReceived_waiting head) _
        rw [target] at refused
        refine ⟨row,rfl,fits,refused,?_⟩
        simp only [undone,target]
        rfl

end deferral
end AetherRelay
