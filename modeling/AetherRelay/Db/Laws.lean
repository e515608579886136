import AetherRelay.Db.Store

namespace AetherRelay.Db
variable {id k : Uuid}

section queue

theorem nextReceived_status {db : Db} (next : db.nextReceived = some row) :
    row ∈ db.incomingEvents.rows ∧ row.status = .received := by
  simpa using List.mem_filter.mp (List.argmin_mem next)

theorem nextReceived_oldest {db : Db} (next : db.nextReceived = some row)
    (member : other ∈ db.incomingEvents.rows) (waiting : other.status = .received) :
    queueOrder row ≤ queueOrder other :=
  List.le_of_mem_argmin (List.mem_filter.mpr ⟨member,by simpa using waiting⟩) next

theorem nextReceived_none {db : Db} :
    db.nextReceived = none ↔ ∀ e ∈ db.incomingEvents.rows, e.status ≠ .received := by
  simp [nextReceived,List.argmin_eq_none]

theorem nextReceived_event {db : Db} (next : db.nextReceived = some row) : db.event row.id = some row :=
  Table.lookup_of_mem (nextReceived_status next).1

theorem nextReceived_exact {db : Db} : db.nextReceived = some row ↔
    row ∈ db.incomingEvents.rows ∧ row.status = .received ∧
      ∀ other ∈ db.incomingEvents.rows, other.status = .received → queueOrder row ≤ queueOrder other := by
  constructor
  · intro next
    exact ⟨(nextReceived_status next).1,(nextReceived_status next).2,
      fun other member waiting => nextReceived_oldest next member waiting⟩
  · rintro ⟨member,waiting,oldest⟩
    cases next : db.nextReceived with
    | none => exact absurd waiting (nextReceived_none.mp next row member)
    | some head =>
      have status := nextReceived_status next
      have low := nextReceived_oldest next member waiting
      have high := oldest head status.1 status.2
      have same : queueOrder head = queueOrder row := le_antisymm low high
      have ids : head.id = row.id := congrArg (fun pair => (ofLex pair).2) same
      rw [Table.eq_of_key status.1 member ids]

end queue

section events

theorem status_some {db : Db} : db.status id = some st ↔ ∃ row, db.event id = some row ∧ row.status = st := by
  simp [status]

theorem event_mem {db : Db} (found : db.event id = some row) : row ∈ db.incomingEvents.rows ∧ row.id = id :=
  Table.lookup_exact.mp found

theorem event_of_mem {db : Db} (member : row ∈ db.incomingEvents.rows) : db.event row.id = some row :=
  Table.lookup_of_mem member

theorem event_congr {db next : Db} (same : next.incomingEvents = db.incomingEvents) : next.event id = db.event id :=
  congrArg (·.lookup id) same

theorem status_congr {db next : Db} (same : next.incomingEvents = db.incomingEvents) :
    next.status id = db.status id := by
  rw [status,event_congr same,status]

theorem nextReceived_congr {db next : Db} (same : next.incomingEvents = db.incomingEvents) :
    next.nextReceived = db.nextReceived := by
  rw [nextReceived,same]
  rfl

theorem nextReceived_waiting {db : Db} (head : db.nextReceived = some row) : db.status row.id = some .received :=
  status_some.mpr ⟨row,nextReceived_event head,(nextReceived_status head).2⟩

theorem endpoint_of_event {db : Db} (found : db.event id = some row) :
    ∃ parent, db.endpoint row.endpointId = some parent :=
  Option.isSome_iff_exists.mp (db.eventParent row (event_mem found).1)

theorem event_setStatus (db : Db) (id k : Uuid) (st : EventStatus) :
    (db.setStatus id st).event k =
      if k = id then (db.event k).map (·.withStatus st) else db.event k :=
  Table.lookup_modify db.incomingEvents (·.withStatus st) (fun _ => rfl) id k

theorem status_setStatus (db : Db) (id k : Uuid) (st : EventStatus) :
    (db.setStatus id st).status k = if k = id then (db.status k).map (fun _ => st) else db.status k := by
  unfold status
  rw [event_setStatus]
  split
  · cases db.event k <;> rfl
  · rfl

theorem event_claimed {db : Db} (head : db.nextReceived = some row) :
    (db.setStatus row.id .processing).event row.id = some (row.withStatus .processing) := by
  rw [event_setStatus,if_pos rfl,nextReceived_event head]
  rfl

@[simp] theorem endpoints_setStatus (db : Db) (id : Uuid) (st : EventStatus) :
    (db.setStatus id st).endpoints = db.endpoints := rfl
@[simp] theorem attempts_setStatus (db : Db) (id : Uuid) (st : EventStatus) :
    (db.setStatus id st).deliveryAttempts = db.deliveryAttempts := rfl
@[simp] theorem letters_setStatus (db : Db) (id : Uuid) (st : EventStatus) :
    (db.setStatus id st).deadLetterQueue = db.deadLetterQueue := rfl

theorem setStatus_same {db : Db} (now : db.status id = some st) : db.setStatus id st = db := by
  apply Db.ext
  · rfl
  · refine Table.modify_self db.incomingEvents (·.withStatus st) (fun _ => rfl) id ?_
    intro row member equal
    have found := event_of_mem member
    rw [equal] at found
    obtain ⟨other,same,has⟩ := status_some.mp now
    rw [found] at same
    cases Option.some.inj same
    rw [← has,IncomingEventRecord.withStatus_self]
  · rfl
  · rfl

theorem setStatus_setStatus (db : Db) (id : Uuid) (one two : EventStatus) :
    (db.setStatus id one).setStatus id two = db.setStatus id two := by
  apply Db.ext
  · rfl
  · apply Table.ext
    simp only [setStatus,Table.modify,List.map_map]
    apply List.map_congr_left
    intro row _
    by_cases equal : row.id = id <;> simp [equal]
  · rfl
  · rfl

-- Withdrawing a claim restores the store exactly: the deferral writes RECEIVED
-- over the PROCESSING the claim wrote over RECEIVED.
theorem setStatus_undo {db : Db} (was : db.status id = some st) (between : EventStatus) :
    (db.setStatus id between).setStatus id st = db := by
  rw [setStatus_setStatus,setStatus_same was]

end events

section inserts

theorem insertEndpoint_parts {db next : Db} (done : db.insertEndpoint row = .ok next) :
    db.endpoint row.id = none ∧ next.endpoints.rows = db.endpoints.rows ++ [row] ∧
      next.incomingEvents = db.incomingEvents ∧ next.deliveryAttempts = db.deliveryAttempts ∧
      next.deadLetterQueue = db.deadLetterQueue ∧
      ∀ k, next.endpoint k = if row.id = k then some row else db.endpoint k := by
  unfold insertEndpoint at done
  split at done
  · rename_i fresh
    cases done
    exact ⟨Table.not_mem_keys.mp fresh,rfl,rfl,rfl,rfl,Table.lookup_insert db.endpoints row fresh⟩
  · cases done

theorem insertEvent_parts {db next : Db} (done : db.insertEvent row = .ok next) :
    db.event row.id = none ∧ db.eventByKey row.endpointId row.idempotencyKey = none ∧
      (∃ parent, db.endpoint row.endpointId = some parent) ∧
      next.incomingEvents.rows = db.incomingEvents.rows ++ [row] ∧
      next.endpoints = db.endpoints ∧ next.deliveryAttempts = db.deliveryAttempts ∧
      next.deadLetterQueue = db.deadLetterQueue ∧
      ∀ k, next.event k = if row.id = k then some row else db.event k := by
  unfold insertEvent at done
  split at done
  · rename_i fresh
    split at done
    · rename_i unused
      split at done
      · rename_i parent
        cases done
        exact ⟨Table.not_mem_keys.mp fresh,unused,Option.isSome_iff_exists.mp parent,rfl,rfl,rfl,rfl,
          Table.lookup_insert db.incomingEvents row fresh⟩
      · cases done
    · cases done
  · cases done

theorem insertEvent_ok {db : Db} (fresh : db.event row.id = none)
    (unused : db.eventByKey row.endpointId row.idempotencyKey = none)
    (parent : db.endpoint row.endpointId = some p) : ∃ next, db.insertEvent row = .ok next := by
  have missing : row.id ∉ db.incomingEvents.rows.map (·.id) := Table.not_mem_keys.mpr fresh
  have present : (db.endpoints.lookup row.endpointId).isSome = true := by
    change (db.endpoint row.endpointId).isSome = true
    simp [parent]
  unfold insertEvent
  rw [dif_pos missing,dif_pos unused,dif_pos present]
  exact ⟨_,rfl⟩

theorem insertAttempt_parts {db next : Db} (done : db.insertAttempt row = .ok next) :
    (∃ e, db.event row.eventId = some e) ∧
      next.deliveryAttempts.rows = db.deliveryAttempts.rows ++ [row] ∧ next.endpoints = db.endpoints ∧
      next.incomingEvents = db.incomingEvents ∧ next.deadLetterQueue = db.deadLetterQueue := by
  unfold insertAttempt at done
  split at done
  · split at done
    · rename_i parent
      cases done
      exact ⟨Option.isSome_iff_exists.mp parent,rfl,rfl,rfl,rfl⟩
    · cases done
  · cases done

theorem insertAttempt_error {db : Db} (failed : db.insertAttempt row = .error e) :
    row.id ∈ db.deliveryAttempts.rows.map (·.id) ∨ db.event row.eventId = none := by
  unfold insertAttempt at failed
  split at failed
  · split at failed
    · cases failed
    · rename_i orphan
      exact .inr (by simpa [event] using orphan)
  · rename_i taken; exact .inl (by simpa using taken)

theorem replaceLetter_parts {db next : Db} (done : db.replaceLetter row = .ok next) :
    (∃ e, db.event row.eventId = some e) ∧
      next.deadLetterQueue.rows =
        db.deadLetterQueue.rows.filter (fun d => d.id ≠ row.id && d.eventId ≠ row.eventId) ++ [row] ∧
      next.endpoints = db.endpoints ∧ next.incomingEvents = db.incomingEvents ∧
      next.deliveryAttempts = db.deliveryAttempts := by
  unfold replaceLetter at done
  split at done
  · rename_i parent
    cases done
    exact ⟨Option.isSome_iff_exists.mp parent,rfl,rfl,rfl,rfl⟩
  · cases done

theorem replaceLetter_error {db : Db} (failed : db.replaceLetter row = .error e) :
    db.event row.eventId = none := by
  unfold replaceLetter at failed
  split at failed
  · cases failed
  · rename_i orphan; simpa [event] using orphan

end inserts

section deletes

theorem event_deleteEndpoint (db : Db) (id k : Uuid) :
    (db.deleteEndpoint id).event k = (db.event k).filter (fun e => e.endpointId ≠ id) :=
  Table.lookup_retain _ _ _

theorem endpoint_deleteEndpoint (db : Db) (id k : Uuid) :
    (db.deleteEndpoint id).endpoint k = if k = id then none else db.endpoint k := by
  change ((db.endpoints.retain (fun p => p.id ≠ id)).lookup k) = _
  rw [Table.lookup_retain]
  unfold endpoint
  cases found : db.endpoints.lookup k with
  | none => simp
  | some p =>
    have key := Table.lookup_key found
    by_cases equal : k = id <;> simp [key,equal]

theorem pendingCount_zero {db : Db} (none : db.pendingCount id = 0) (member : e ∈ db.incomingEvents.rows)
    (parent : e.endpointId = id) : e.status.pending = false := by
  have empty := List.filter_eq_nil_iff.mp (List.length_eq_zero_iff.mp none) e member
  simpa [parent] using empty

theorem event_kept {db : Db} (none : db.pendingCount id = 0) (found : db.event k = some row)
    (pending : row.status.pending = true) : (db.deleteEndpoint id).event k = some row := by
  rw [event_deleteEndpoint,found]
  by_cases same : row.endpointId = id
  · rw [pendingCount_zero none (event_mem found).1 same] at pending
    cases pending
  · simp [same]

theorem attempts_deleteAttempts (db : Db) (e k : Uuid) :
    (db.deleteAttempts e).attempts k = if k = e then [] else db.attempts k := by
  unfold attempts deleteAttempts Table.retain
  dsimp only
  rw [List.filter_filter]
  split
  · rename_i same
    subst same
    exact List.filter_eq_nil_iff.mpr fun a _ both => (by simp at both)
  · rename_i other
    apply List.filter_congr
    intro a _
    by_cases same : a.eventId = k <;> simp [same,other]

end deletes
end AetherRelay.Db
